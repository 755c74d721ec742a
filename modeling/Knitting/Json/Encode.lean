import Knitting.Json.Value
import Knitting.Number.Layout
import Knitting.Program

set_option autoImplicit false

/-! # Yarn and passes as JSON

Fields come in the order of the structures, the entries of a table in the order of its keys, and
what is one of a few names is written as that name. -/

namespace Knitting

open Json (ofNat ofInt ofText ofText? ofFields)

def Bed.name : Bed → String
  | front => "Front"
  | frontSlider => "FrontSlider"
  | backSlider => "BackSlider"
  | back => "Back"

def Direction.all : List Direction := [left, right, undirected]

def Direction.name : Direction → String
  | left => "Left"
  | right => "Right"
  | undirected => "None"

def Json.ofFloat32 (x : Float32) : Json := .number (Number.float32Json x)

def Json.ofFloat (x : Float) : Json := .number (Number.floatJson x)

def Point.toJson (p : Point Float32) : Json :=
  .array [.ofFloat32 p.x, .ofFloat32 p.y, .ofFloat32 p.z]

/-- A loop with the lane and direction of its row. -/
def Loop.toJson (l : Loop Float32) : Json :=
  ofFields
    [("points", .array (l.points.map Point.toJson)),
     ("carrier", ofNat l.carrier),
     ("direction", ofText l.direction.name)]

/-- The loops at the needles of a bed, by index. -/
def needlesToJson (needles : Table Int (List (Loop Float32))) : Json :=
  ofFields (needles.entries.map fun (index, loops) =>
    (toString index, .array (loops.map Loop.toJson)))

/-- A row with its loops by bed and then by index. -/
def Row.toJson (r : Row Float32) : Json :=
  ofFields
    [("direction", ofText r.direction.name),
     ("beds",
      ofFields (r.beds.entries.map fun (bed, needles) => (bed.name, needlesToJson needles)))]

def Needle.toJson (n : Needle) : Json :=
  ofFields [("bed", ofText n.bed.name), ("needle", ofInt n.index)]

def LoopPlace.toJson (p : LoopPlace) : Json :=
  ofFields [("row", ofNat p.row), ("at", p.needle.toJson)]

/-- A path, with `null` for the place of a last loop that there is not. -/
def YarnPath.toJson (p : YarnPath Float32) : Json :=
  ofFields
    [("rows", .array (p.rows.map Row.toJson)),
     ("last", (p.last.map LoopPlace.toJson).getD .null)]

def YarnStore.toJson (s : YarnStore Float32) : Json :=
  ofFields [("paths", ofFields (s.paths.entries.map fun (lane, p) => (toString lane, p.toJson)))]

/-- A pass, with `null` for an action of the hook or gripper that there is not. -/
def Pass.toJson (p : Pass) : Json :=
  ofFields
    [("pass_type", ofText p.kind.name),
     ("slots", ofFields (p.slots.entries.map fun (slot, op) => (toString slot, ofText op.name))),
     ("racking", .ofFloat p.racking),
     ("stitch", ofNat p.stitch),
     ("direction", ofText p.direction.name),
     ("carriers", .array (p.carriers.map ofText)),
     ("hook", ofText? (p.hook.map HookAction.name)),
     ("gripper", ofText? (p.gripper.map GripperAction.name)),
     ("kick", .bool p.kick)]

/-- What a run builds, without heights and warnings. -/
def Output.toJson (o : Output Float32) : Json :=
  ofFields
    [("carriers", .array (o.carriers.map ofText)),
     ("yarn", o.yarn.toJson),
     ("passes", .array (o.passes.map Pass.toJson)),
     ("kicks", ofNat o.kicks)]

end Knitting
