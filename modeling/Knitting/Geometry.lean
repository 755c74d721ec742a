import Knitting.Carrier.Basic
import Knitting.Scalar

set_option autoImplicit false

/-! # Settings

What a run can be set up with: the sizes of a stitch, which only the yarn depends on, and the
machine's settings, which only the passes depend on. -/

namespace Knitting

/-- The sizes and depths from which yarn is laid out. -/
structure Geometry (α : Type) where
  /-- Width of a stitch box along the needles. -/
  boxWidth : α
  boxHeight : α
  /-- Depth of the zig-zag of a loop's head. -/
  boxDepth : α
  /-- Gap between neighbouring boxes, and the rise of a knit on a loop. -/
  boxSpacing : α
  /-- What is added to a height that has to be cleared. -/
  epsilon : α
  /-- Space between the edge of a box and the drop of the yarn to the bed. -/
  padding : α
  frontBedDepth : α
  backBedDepth : α
  frontSliderDepth : α
  backSliderDepth : α
  /-- Depth of the first lane. -/
  carrierDepth : α
  deriving DecidableEq, Repr

namespace Geometry

variable {α : Type} [Scalar α]

open Scalar

/-- A box of width and height one, a tenth of it deep and half of it apart from the next. -/
def standard : Geometry α where
  boxWidth := ofNat 1
  boxHeight := ofNat 1
  boxDepth := ofNat 1 / ofNat 10
  boxSpacing := ofNat 1 / ofNat 2
  epsilon := ofNat 1 / ofNat 10
  padding := ofNat 1 / ofNat 10
  frontBedDepth := ofNat 1
  backBedDepth := ofInt (-1)
  frontSliderDepth := ofNat 1 / ofNat 2
  backSliderDepth := ofInt (-1) / ofNat 2
  carrierDepth := ofInt (-2) / ofNat 5

def pitch (g : Geometry α) : α := g.boxWidth + g.boxSpacing

def bedDepth (g : Geometry α) : Bed → α
  | .front => g.frontBedDepth
  | .frontSlider => g.frontSliderDepth
  | .backSlider => g.backSliderDepth
  | .back => g.backBedDepth

/-- The depth of a lane: lanes divide the space from the first one to the front sliders evenly. -/
def laneDepth (g : Geometry α) (lane : Lane) : α :=
  let spacing := (g.frontSliderDepth - g.carrierDepth) / ofNat (max lane.count 1)
  g.carrierDepth + spacing * ofNat lane.index

end Geometry

/-- The settings of a run. -/
structure Config (α : Type) where
  geometry : Geometry α
  stitchNumber : Nat
  /-- The slots of clearance that a parked carrier needs. -/
  stoppingDistance : Int
  /-- The newest version of the notation that is understood. -/
  maxVersion : Nat
  deriving DecidableEq, Repr

/-- The settings without which nothing else is said. -/
def Config.standard {α : Type} [Scalar α] : Config α := ⟨Geometry.standard, 5, 2, 2⟩

end Knitting
