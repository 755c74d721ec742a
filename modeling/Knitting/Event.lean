import Knitting.Needle.Basic
import Knitting.Number.Layout

set_option autoImplicit false

/-! # Events

What a run reports beside its result: the steps that no instruction asks for by name, such as
kicks and merged passes. -/

namespace Knitting

/-- Something that happens inside a step. -/
inductive Event where
  | moved (loops lane row : Nat) (source target : Needle)
  | dropped (needle : Needle) (rows : Nat)
  | merged (slots : List Int)
  | kicked (carrier : String) (parked : Float) (slot : Int)
  /-- There was no pass to which taking carriers out could be tied. -/
  | outUnattached (carriers : List String)
  /-- There was no pass to which letting go of the hook could be tied. -/
  | releaseUnattached
  deriving DecidableEq, Repr

def Event.message : Event → String
  | moved loops lane row source target =>
    "moving " ++ toString loops ++ " loop(s) of lane " ++ toString lane ++ " row " ++ toString row
      ++ " from " ++ source.text ++ " to " ++ target.text
  | dropped needle rows => "dropped " ++ needle.text ++ " (" ++ toString rows ++ " row(s))"
  | merged slots =>
    "merged slot(s) [" ++ ", ".intercalate (slots.map toString) ++ "] into open pass"
  | kicked carrier parked slot =>
    "kicking carrier " ++ carrier ++ " (parked at " ++ Number.floatText parked ++ ") clear of slot "
      ++ toString slot
  | outUnattached carriers =>
    "no open pass to carry the out of [" ++ " ".intercalate carriers ++ "]"
  | releaseUnattached => "releasehook not attached to any pass"

end Knitting
