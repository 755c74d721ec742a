import Knitting.Needle.Slot

set_option autoImplicit false

/-! # Carriers

A yarn carrier is active from the moment it is brought in until it is taken out. After a stitch it
is parked beside the needle that it stitched last. -/

namespace Knitting

/-- How a group of carriers is brought in. -/
inductive InKind where
  /-- By the gripper alone. -/
  | plain
  /-- With the yarn hook. -/
  | hook
  deriving DecidableEq, Repr, Inhabited

def InKind.op : InKind → String
  | plain => "in"
  | hook => "inhook"

/-- A bring-in that waits for the first stitch of its group. -/
structure PendingIn where
  kind : InKind
  /-- The whole group, in the order of the instruction. -/
  carriers : List String
  deriving DecidableEq, Repr

/-- The stitch or kick that left a carrier where it is. -/
structure LastStitch where
  needle : Needle
  direction : Direction
  /-- The slots of clearance that the parked carrier needs from a passing carriage. -/
  stoppingDistance : Int
  deriving DecidableEq, Repr

/-- Where a carrier is parked, in slots: half a slot beyond its needle in the direction of its
sweep. -/
def LastStitch.parkedSlot (last : LastStitch) (racking : Float) : Float :=
  let place := last.needle.slotPosition racking
  match last.direction with
  | .right => place + 0.5
  | .left => place - 0.5
  | .undirected => place

/-- An active carrier. -/
structure Carrier where
  name : String
  last : Option LastStitch
  /-- The bring-in that its first stitch has still to complete. -/
  pending : Option PendingIn
  deriving DecidableEq, Repr

/-- The lane of a carrier in the corridor between the beds. -/
structure Lane where
  /-- The place of the carrier in the list of declared carriers. -/
  index : Nat
  /-- The number of declared carriers, among which the corridor is divided. -/
  count : Nat
  deriving DecidableEq, Repr

end Knitting
