import Knitting.Error
import Knitting.Number.Binary
import Knitting.Text.Digit

set_option autoImplicit false

/-! # Racking

The racking is how far the back bed is shifted to the right of the front bed, in needles: a whole
number, or a quarter above one. Only its whole part moves slots. -/

namespace Knitting.Racking

/-- By how many slots a racking shifts the back bed; `none` for the two infinities, which shift it
beyond every slot. What is not a number does not shift it. -/
def shift? (racking : Float) : Option Int :=
  match Number.Value.ofFloat racking with
  | .nan => some 0
  | .infinite _ => none
  | v => v.floor?

/-- The greatest whole number that is not above a racking, as a racking. -/
def floor (racking : Float) : Float :=
  match (Number.Value.ofFloat racking).floor? with
  | some n => Float.ofInt n
  | none => racking

/-- Splits a text into the digits before and after its point. Without a point all digits stand
before it. -/
def splitPoint : List Char → List Char × Option (List Char)
  | [] => ([], none)
  | c :: cs => if c = '.' then ([], some cs) else ((splitPoint cs).map (c :: ·) id)

/-- The number that digits, with or without a point before the last of them, spell. It is the
64-bit number nearest to what is written. -/
def readMagnitude? (cs : List Char) : Option Float :=
  match splitPoint cs with
  | (whole, none) => (Text.readNat? whole).map fun n => Float.ofScientific n false 0
  | (_, some []) => none
  | (whole, some (c :: fraction)) =>
    (Text.readNat? (whole ++ c :: fraction)).map fun n =>
      Float.ofScientific n true (fraction.length + 1)

/-- The number that a text spells: a sign or none, digits, and perhaps a point with digits after
it. -/
def readNumber? : List Char → Option Float
  | '-' :: cs => (readMagnitude? cs).map Float.neg
  | '+' :: cs => readMagnitude? cs
  | cs => readMagnitude? cs

def parse (token : String) : Except Error Float :=
  match readNumber? token.toList with
  | none => .error (.invalidRacking token)
  | some racking =>
    let fraction := racking - floor racking
    if fraction == 0 || fraction == 0.25 then .ok racking
    else .error (.fractionalRacking racking)

end Knitting.Racking
