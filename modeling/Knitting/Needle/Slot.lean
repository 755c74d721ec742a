import Knitting.Racking

set_option autoImplicit false

/-! # Slots

A slot is a place along the machine. A front needle is at the slot of its own index; the racking
shifts the back needles against it. -/

namespace Knitting.Needle

/-- The slot of a needle under a racking, if it is one of the machine's slots. -/
def slot? (n : Needle) (racking : Float) : Option Int :=
  match n.bed.side with
  | .front => some n.index
  | .back => ((Racking.shift? racking).map (n.index + ·)).filter isIndex

def slot (n : Needle) (racking : Float) : Except Error Int :=
  match n.slot? racking with
  | some s => .ok s
  | none => .error (.slotOutOfRange n racking)

/-- The place of a needle under a racking, in slots, whether or not there is a slot. The sum of
index and shift is taken exactly and rounded once. -/
def slotPosition (n : Needle) (racking : Float) : Float :=
  match n.bed.side with
  | .front => Float.ofInt n.index
  | .back =>
    match (Number.Value.ofFloat racking).floor? with
    | some shift => Float.ofInt (n.index + shift)
    | none => racking

end Knitting.Needle
