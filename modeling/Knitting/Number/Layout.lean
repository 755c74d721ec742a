import Knitting.Number.Shortest

set_option autoImplicit false

/-! # How numbers are written

The two notations of the program's output. `plainText` writes every digit in its place, whatever
the size of the number; `jsonText` leaves positional notation for numbers far from one and always
shows that a number is not an integer type. Both write the shortest digits that read back. -/

namespace Knitting.Number

def digitsOf (n : Nat) : List Char := Nat.toDigits 10 n

/-- A decimal without an exponent: zeros fill the places between its digits and the point. -/
def Decimal.positional (d : Decimal) : String :=
  let ds := digitsOf d.digits
  if 0 ≤ d.exponent then
    String.ofList (ds ++ List.replicate d.exponent.toNat '0')
  else
    let places := (-d.exponent).toNat
    let padded := List.replicate (places + 1 - ds.length) '0' ++ ds
    let whole := padded.length - places
    String.ofList (padded.take whole ++ '.' :: padded.drop whole)

/-- The power of ten of the first digit. -/
def Decimal.leadingExponent (d : Decimal) : Int :=
  d.exponent + (digitsOf d.digits).length - 1

/-- A decimal with one digit before the point and a signed exponent. -/
def Decimal.scientific (d : Decimal) : String :=
  let lead := d.leadingExponent
  let exponent := (if lead < 0 then '-' else '+') :: digitsOf lead.natAbs
  match digitsOf d.digits with
  | [] => ""
  | [c] => String.ofList (c :: 'e' :: exponent)
  | c :: rest => String.ofList (c :: '.' :: rest ++ 'e' :: exponent)

def signText (negative : Bool) : String := if negative then "-" else ""

/-- Positional notation without limits; of two nearest decimals the greater is written. -/
def plainText : Value → String
  | .nan => "NaN"
  | .infinite negative => signText negative ++ "inf"
  | .zero negative => signText negative ++ "0"
  | .finite negative b => signText negative ++ (b.shortest .up).positional

/-- For which powers of ten of the first digit the JSON notation is positional. -/
structure JsonRange where
  lowest : Int
  highest : Int

/-- JSON notation of 32-bit numbers is positional from `10 ^ -6` to below `10 ^ 13`. -/
def JsonRange.single : JsonRange := ⟨-6, 12⟩

/-- JSON notation of 64-bit numbers is positional from `10 ^ -5` to below `10 ^ 16`. -/
def JsonRange.double : JsonRange := ⟨-5, 15⟩

/-- JSON notation: a point or an exponent always stands in it, a tie goes to the even digit, and
what is not a finite number is `null`. -/
def jsonText (range : JsonRange) : Value → String
  | .nan => "null"
  | .infinite _ => "null"
  | .zero negative => signText negative ++ "0.0"
  | .finite negative b =>
    let d := b.shortest .even
    let lead := d.leadingExponent
    signText negative ++
      if range.lowest ≤ lead && lead ≤ range.highest then
        if 0 ≤ d.exponent then d.positional ++ ".0" else d.positional
      else d.scientific

def floatText (x : Float) : String := plainText (.ofFloat x)

def float32Text (x : Float32) : String := plainText (.ofFloat32 x)

def floatJson (x : Float) : String := jsonText .double (.ofFloat x)

def float32Json (x : Float32) : String := jsonText .single (.ofFloat32 x)

end Knitting.Number
