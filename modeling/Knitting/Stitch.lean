import Knitting.Geometry

set_option autoImplicit false

/-! # The outline of a stitch

Every stitch is drawn as the same eighteen points: from the lane down onto the bed, through the
zig-zag of the loop's head, and back out to the lane toward the next needle. How high it stands is
decided elsewhere. -/

namespace Knitting

def loopPoints : Nat := 18

/-- The first point at the top of the head. -/
def headTop : Nat := 6

/-- The points from this one on lie in the corridor. -/
def corridorStart : Nat := 16

/-- Whether a point is lifted with the head when the neighbours of a knit stand higher. -/
def inKnitHead (i : Nat) : Bool := 4 ≤ i && i ≤ 11

/-- Whether a point is drawn anew when its loop moves to another needle. -/
def inTransferHead (i : Nat) : Bool := 5 ≤ i && i ≤ 10

/-- What one stitch is drawn from. -/
structure StitchSpec (α : Type) where
  direction : Direction
  needle : Needle
  lane : Lane
  /-- The height of its base. -/
  height : α
  /-- The height at which its yarn arrives. -/
  carrierHeight : α
  deriving DecidableEq, Repr

variable {α : Type} [Scalar α]

open Scalar

/-- Where the box of a needle starts for a sweep in a direction: at its right edge for a sweep to
the left, at its left edge otherwise. -/
def Geometry.boxStart (g : Geometry α) (direction : Direction) (index : Int) : α :=
  let x := ofInt index * g.pitch
  match direction with
  | .left => x
  | .right => x - g.boxWidth
  | .undirected => x - g.boxWidth

/-- By how much the yarn of a lane drops beside the start of a box, so that lanes do not drop onto
each other. -/
def Geometry.laneOffset (g : Geometry α) (direction : Direction) (lane : Lane) : α :=
  let padding := if direction = .left then -g.padding else g.padding
  padding / ofNat (max lane.count 1) * ofNat lane.index

def Geometry.stitchBox (g : Geometry α) (spec : StitchSpec α) : List (Point α) :=
  let leftward := spec.direction = .left
  let width := g.boxWidth - g.padding * ofNat 2
  let dx := if leftward then -width / ofNat 5 else width / ofNat 5
  let dy := g.boxHeight / ofNat 3
  let dz := if spec.needle.bed.isBack then -g.boxDepth / ofNat 2 else g.boxDepth / ofNat 2
  let padding := if leftward then -g.padding else g.padding
  let start := g.boxStart spec.direction spec.needle.index
  let drop := g.laneOffset spec.direction spec.lane
  let legIn := start + padding
  let legOut := start + padding + ofNat 5 * dx + padding - drop
  let next := if leftward then start - g.pitch else start + g.pitch
  let two := ofNat 2
  -- Onto the bed.
  let x := start + drop
  let base := spec.height
  let z := g.bedDepth spec.needle.bed
  let p0 : Point α := ⟨x, spec.carrierHeight, z⟩
  let p1 : Point α := ⟨x, base, z⟩
  let p2 : Point α := ⟨legIn, base, z⟩
  -- Up one leg, across the crown, down the other leg.
  let x3 := legIn + two * dx
  let z3 := z - dz
  let p3 : Point α := ⟨x3, base, z3⟩
  let y4 := base + dy
  let z4 := z3 + two * dz
  let p4 : Point α := ⟨x3, y4, z4⟩
  let x5 := x3 - dx
  let p5 : Point α := ⟨x5, y4, z4⟩
  let y6 := y4 + dy
  let p6 : Point α := ⟨x5, y6, z4⟩
  let x7 := x5 + dx
  let z7 := z4 - two * dz
  let p7 : Point α := ⟨x7, y6, z7⟩
  let x8 := x7 + dx
  let p8 : Point α := ⟨x8, y6, z7⟩
  let x9 := x8 + dx
  let z9 := z7 + two * dz
  let p9 : Point α := ⟨x9, y6, z9⟩
  let y10 := y6 - dy
  let p10 : Point α := ⟨x9, y10, z9⟩
  let x11 := x9 - dx
  let p11 : Point α := ⟨x11, y10, z9⟩
  let y12 := y10 - dy
  let z12 := z9 - two * dz
  let p12 : Point α := ⟨x11, y12, z12⟩
  let x13 := x11 + two * dx
  let z13 := z12 + dz
  let p13 : Point α := ⟨x13, y12, z13⟩
  let p14 : Point α := ⟨legOut, y12, z13⟩
  -- Out to the lane.
  let p16 : Point α := ⟨legOut, base, g.laneDepth spec.lane⟩
  let p17 : Point α := ⟨next, base, g.laneDepth spec.lane⟩
  [p0, p1, p2, p3, p4, p5, p6, p7, p8, p9, p10, p11, p12, p13, p14, p14, p16, p17]

/-- The height of the top of the head of a stitch. -/
def Geometry.headHeight (g : Geometry α) (height : α) : α :=
  height + g.boxHeight / ofNat 3 + g.boxHeight / ofNat 3

/-- A stitch starts where its yarn arrives. -/
theorem Geometry.head?_stitchBox (g : Geometry α) (spec : StitchSpec α) :
    (g.stitchBox spec).head? = some
      ⟨g.boxStart spec.direction spec.needle.index + g.laneOffset spec.direction spec.lane,
        spec.carrierHeight, g.bedDepth spec.needle.bed⟩ := rfl

theorem Geometry.stitchBox_headTop (g : Geometry α) (spec : StitchSpec α) :
    ((g.stitchBox spec)[headTop]?).map (·.y) = some (g.headHeight spec.height) := rfl

theorem Geometry.length_stitchBox (g : Geometry α) (spec : StitchSpec α) :
    (g.stitchBox spec).length = loopPoints := rfl

end Knitting
