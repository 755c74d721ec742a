import Knitting.Error
import Knitting.Text.Digit

set_option autoImplicit false

/-! # Reading needles and directions

A needle is written as the letters of its bed and its index. A text has to have that form first, in
which decimal digits of any script will do (`Needle.form?`). The index is then read from what stands
behind the letters, and only ASCII digits spell one. -/

namespace Knitting

def readIndex? (cs : List Char) : Option Int :=
  (Text.readInt? cs).filter isIndex

namespace Needle

/-- The letters and the number of a text in the form of a needle. The letters of a bed are tried
before those of its slider, but take no text in which there is more than a number behind them. -/
def form? (cs : List Char) : Option (Bed × List Char) :=
  [Bed.front, .back, .frontSlider, .backSlider].findSome? fun bed =>
    ((bed.letters.toList.isPrefixOf? cs).filter Text.isNumeral).map (bed, ·)

def parse (token : String) : Except Error Needle :=
  match form? token.toList with
  | none => .error (.invalidNeedle token)
  | some (bed, number) =>
    match readIndex? number with
    | none => .error (.invalidNeedle token)
    | some index => .ok ⟨bed, index⟩

end Needle

def Direction.parse (token : String) : Except Error Direction :=
  match ofSign? token with
  | some d => .ok d
  | none => .error (.invalidDirection token)

end Knitting
