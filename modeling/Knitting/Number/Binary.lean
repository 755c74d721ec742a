set_option autoImplicit false

/-! # Binary floating-point numbers as exact values

A finite binary number is `± m · 2 ^ q` for a natural `m` and an integer `q`. This file takes the
bit patterns of the two interchange formats apart into that form, so that printing, rounding down
and comparing can be done in exact integer arithmetic. -/

namespace Knitting.Number

/-- A positive binary number `mantissa · 2 ^ exponent` of some format, with what has to be known of
its neighbours: the one above is a unit of the last place away, and so is the one below, unless
`narrow` says that it is only half a unit away. -/
structure Binary where
  mantissa : Nat
  /-- The power of two of its last place. -/
  exponent : Int
  /-- Whether the number is the first of its binade, so that the gap below it is half as wide. -/
  narrow : Bool
  deriving DecidableEq, Repr

/-- What a floating-point number stands for. -/
inductive Value where
  | nan
  | infinite (negative : Bool)
  | zero (negative : Bool)
  /-- A number other than zero. -/
  | finite (negative : Bool) (magnitude : Binary)
  deriving DecidableEq, Repr

/-- The widths of an interchange format. -/
structure Format where
  fractionBits : Nat
  exponentBits : Nat

def Format.single : Format := ⟨23, 8⟩

def Format.double : Format := ⟨52, 11⟩

/-- The power of two of the last place of the numbers with the smallest exponent. -/
def Format.lowestExponent (f : Format) : Int :=
  2 - Int.pow 2 (f.exponentBits - 1) - f.fractionBits

/-- What a bit pattern of a format stands for. An exponent field of zero marks the numbers without
a leading one, the largest field marks infinities and what is not a number. -/
def Value.ofBits (f : Format) (bits : Nat) : Value :=
  let fraction := bits % Nat.pow 2 f.fractionBits
  let field := bits / Nat.pow 2 f.fractionBits % Nat.pow 2 f.exponentBits
  let negative := bits / Nat.pow 2 (f.fractionBits + f.exponentBits) % 2 == 1
  if field = Nat.pow 2 f.exponentBits - 1 then
    if fraction = 0 then .infinite negative else .nan
  else if field = 0 then
    if fraction = 0 then .zero negative else .finite negative ⟨fraction, f.lowestExponent, false⟩
  else
    .finite negative
      ⟨Nat.pow 2 f.fractionBits + fraction, f.lowestExponent + (field - 1),
        fraction == 0 && field > 1⟩

def Value.ofFloat32 (x : Float32) : Value := .ofBits .single x.toBits.toNat

def Value.ofFloat (x : Float) : Value := .ofBits .double x.toBits.toNat

/-- The greatest whole number that is not above `± m · 2 ^ q`. -/
def Binary.floor (negative : Bool) (b : Binary) : Int :=
  let m : Int := if negative then -b.mantissa else b.mantissa
  if b.exponent < 0 then m / Int.pow 2 (-b.exponent).toNat else m * Int.pow 2 b.exponent.toNat

/-- The greatest whole number that is not above a number, if it is finite. -/
def Value.floor? : Value → Option Int
  | .nan => none
  | .infinite _ => none
  | .zero _ => some 0
  | .finite negative b => some (b.floor negative)

end Knitting.Number
