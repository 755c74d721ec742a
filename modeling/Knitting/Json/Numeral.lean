import Knitting.Text.Digit

set_option autoImplicit false

/-! # JSON numerals

A numeral is an optional minus sign, digits without a needless leading zero, and perhaps a fraction
and an exponent. Whole numbers of 64 bits are read exactly. Every other number is read by taking as
many digits as fit 64 bits and multiplying or dividing once by a power of ten, which can miss the
nearest number by a little. -/

namespace Knitting.Json

/-- A numeral taken apart. -/
structure Numeral where
  negative : Bool
  whole : List Nat
  /-- The digits after the point, of which there is none without a point. -/
  fraction : List Nat
  exponent : Option (Bool × List Nat)
  deriving DecidableEq, Repr

/-- The digits at the start of a text and what follows them. -/
def takeDigits : List Char → List Nat × List Char
  | [] => ([], [])
  | c :: cs =>
    match Text.digitValue? c with
    | some d => ((takeDigits cs).map (d :: ·) id)
    | none => ([], c :: cs)

/-- The digits before the point of a numeral: there is one, and a zero stands alone. -/
def takeWhole : List Char → Option (List Nat × List Char)
  | '0' :: cs => some ([0], cs)
  | cs =>
    match takeDigits cs with
    | ([], _) => none
    | r => some r

/-- The fraction of a numeral, if a point follows: it has a digit. -/
def takeFraction : List Char → Option (List Nat × List Char)
  | '.' :: cs =>
    match takeDigits cs with
    | ([], _) => none
    | r => some r
  | cs => some ([], cs)

def takeSign : List Char → Bool × List Char
  | '+' :: cs => (false, cs)
  | '-' :: cs => (true, cs)
  | cs => (false, cs)

/-- The exponent of a numeral, if an `e` follows: it has a digit. -/
def takeExponent : List Char → Option (Option (Bool × List Nat) × List Char)
  | [] => some (none, [])
  | c :: cs =>
    if c = 'e' || c = 'E' then
      let (negative, cs) := takeSign cs
      match takeDigits cs with
      | ([], _) => none
      | (digits, rest) => some (some (negative, digits), rest)
    else some (none, c :: cs)

def takeMinus : List Char → Bool × List Char
  | '-' :: cs => (true, cs)
  | cs => (false, cs)

/-- The numeral at the start of a text and what follows it. -/
def takeNumeral (cs : List Char) : Option (Numeral × List Char) := do
  let (negative, cs) := takeMinus cs
  let (whole, cs) ← takeWhole cs
  let (fraction, cs) ← takeFraction cs
  let (exponent, cs) ← takeExponent cs
  return (⟨negative, whole, fraction, exponent⟩, cs)

def numeral? (s : String) : Option Numeral :=
  match takeNumeral s.toList with
  | some (n, []) => some n
  | _ => none

/-! ## The number of a numeral -/

/-- The number that a numeral is read as. -/
inductive Reading where
  /-- A natural number of 64 bits. -/
  | natural (n : Nat)
  /-- The negative of a positive number, of 64 bits with its sign. -/
  | negative (n : Nat)
  | float (x : Float)

/-- Adds digits to a number as long as the result fits 64 bits, and gives those that are left. -/
def gather (n : Nat) : List Nat → Nat × List Nat
  | [] => (n, [])
  | d :: ds => if 10 * n + d < Nat.pow 2 64 then gather (10 * n + d) ds else (n, d :: ds)

/-- The number that the digits of an exponent spell, unless it takes more than 31 bits. -/
def exponentValue? (digits : List Nat) : Option Nat :=
  let n := digits.foldl (fun n d => 10 * n + d) 0
  if n < Nat.pow 2 31 then some n else none

/-- `x · 10 ^ e` by one multiplication or division, after as many divisions by `10 ^ 308` as a very
small power needs: by the third there is nothing left. `none` if the number is too large. -/
def scale (x : Float) (e : Int) : Nat → Option Float
  | 0 => some x
  | steps + 1 =>
    if e.natAbs ≤ 308 then
      if 0 ≤ e then
        let y := x * Float.ofScientific 1 false e.natAbs
        if y.isInf then none else some y
      else some (x / Float.ofScientific 1 false e.natAbs)
    else if x == 0 then some x
    else if 0 ≤ e then none
    else scale (x / Float.ofScientific 1 false 308) (e + 308) steps

/-- The floating-point number of a numeral; `none` if it is too large. -/
def Numeral.float? (n : Numeral) : Option Float := do
  let (significand, left) := gather 0 n.whole
  let (significand, unread) := gather significand n.fraction
  let places : Int := left.length - (n.fraction.length - unread.length : Nat)
  let magnitude ← match n.exponent with
    | none => scale (Float.ofNat significand) places 4
    | some (negative, digits) =>
      match exponentValue? digits with
      | some e =>
        scale (Float.ofNat significand) (if negative then places - e else places + e) 4
      | none => if significand ≠ 0 && !negative then none else some 0
  return if n.negative then -magnitude else magnitude

/-- The number that a numeral is read as; `none` if it is too large. Negative zero is not a whole
number. -/
def Numeral.reading? (n : Numeral) : Option Reading :=
  match gather 0 n.whole, n.fraction, n.exponent with
  | (v, []), [], none =>
    if !n.negative then some (.natural v)
    else if 0 < v && v ≤ Nat.pow 2 63 then some (.negative v)
    else n.float?.map .float
  | _, _, _ => n.float?.map .float

end Knitting.Json
