import Knitting.Error
import Knitting.Event
import Knitting.Height
import Knitting.Yarn.Store

set_option autoImplicit false

/-! # The fabric on the needles

The fabric is the yarn so far, the heights that it reaches, and a record of which loops are on which
needle. Knitting and tucking add a loop and pull the tail of the carrier's last one over to it;
transfers move loops between needles; drops let them go. The record names rows, not loops: a needle
holds what the rows listed for it have there (`Fabric.loopsAt`). -/

namespace Knitting

/-- A row with loops on some needle. -/
@[ext] structure Held where
  lane : Nat
  /-- Its number in the path of that lane. -/
  row : Nat
  deriving DecidableEq, Repr

/-- The fabric. -/
structure Fabric (α : Type) where
  geometry : Geometry α
  heights : HeightIndex α
  store : YarnStore α
  /-- The rows with loops on each occupied needle, oldest first. -/
  held : NeedleTable (List Held)

namespace Fabric

variable {α : Type}

def empty (g : Geometry α) : Fabric α := ⟨g, .empty, .empty, .empty⟩

/-! ## What is on a needle -/

/-- The rows with loops on a needle, oldest first. -/
def heldAt (f : Fabric α) (n : Needle) : List Held := (f.held.at? n).getD []

def rowLoops (f : Fabric α) (h : Held) (n : Needle) : List (Loop α) :=
  ((f.store.row? h.lane h.row).bind (·.slot? n)).getD []

/-- The loops on a needle, row by row. -/
def loopsAt (f : Fabric α) (n : Needle) : List (Loop α) :=
  (f.heldAt n).flatMap fun h => f.rowLoops h n

/-- Lists a row at a needle behind those that are listed there. -/
def addHeld (f : Fabric α) (n : Needle) (h : Held) : Fabric α :=
  if (f.heldAt n).contains h then f else { f with held := f.held.put n (f.heldAt n ++ [h]) }

/-- Lists one row, and no other, at a needle. -/
def setHeld (f : Fabric α) (n : Needle) (h : Held) : Fabric α :=
  { f with held := f.held.put n [h] }

def clearHeld (f : Fabric α) (n : Needle) : Fabric α := { f with held := f.held.remove n }

variable [Scalar α]

open Scalar

/-! ## Heights of loops -/

/-- The base of the topmost loop on a needle. -/
def baseHeight? (f : Fabric α) (n : Needle) : Option α :=
  (greatest? ((f.loopsAt n).filterMap fun l => (l.points[headTop]?).map (·.y))).map fun top =>
    top - f.geometry.boxHeight / ofNat 6 - f.geometry.boxSpacing

/-- The occupied needles of the bed of a needle to its left, nearest first. -/
def leftNeighbours (f : Fabric α) (n : Needle) : List Needle :=
  (((f.held.indices n.bed).filter fun i => i < n.index).map (Needle.mk n.bed)).reverse

/-- The occupied needles of the bed of a needle to its right, nearest first. -/
def rightNeighbours (f : Fabric α) (n : Needle) : List Needle :=
  ((f.held.indices n.bed).filter fun i => n.index < i).map (Needle.mk n.bed)

/-- The base of the higher of the two nearest neighbours of a needle, but no less than zero. -/
def neighbourHeight (f : Fabric α) (n : Needle) : α :=
  let left := (f.leftNeighbours n).findSome? f.baseHeight?
  let right := (f.rightNeighbours n).findSome? f.baseHeight?
  (left.toList ++ right.toList).foldl max (ofNat 0)

/-! ## Reaching a stitch -/

/-- The lanes that yarn crosses between the bed of a needle and its own lane: those with greater
numbers in front, those with smaller numbers at the back. -/
def crossedLanes (n : Needle) (lane : Lane) : List Nat :=
  match n.bed.side with
  | .front => (List.range lane.count).filter fun i => lane.index < i
  | .back => List.range lane.index

/-- A height from `height` up that clears the crossed lanes at a needle. -/
def clearCrossed (f : Fabric α) (height : α) (n : Needle) (lane : Lane) : α :=
  f.heights.clearLanes height n.index (crossedLanes n lane) f.geometry.epsilon

/-- Where the last loop of a lane is, and how high its tail is. -/
def tail? (f : Fabric α) (lane : Nat) : Option (LoopPlace × α) := do
  let path ← f.store.path? lane
  let place ← path.last
  let loop ← path.lastLoop?
  let point ← loop.points.getLast?
  return (place, point.y)

/-- The height at which yarn arrives at a needle from the last loop of its lane: clear of the gaps
between, and of the crossed lanes at either end. -/
def arrival (f : Fabric α) (lane : Lane) (n : Needle) (place : LoopPlace) (tail : α) : α :=
  let lo := min n.index place.needle.index
  let hi := max n.index place.needle.index
  let h := f.heights.clearSpan tail lo hi lane.index f.geometry.epsilon
  let h := f.clearCrossed h n lane
  f.clearCrossed h place.needle lane

/-- The fabric with the last loop of a lane, at `place`, led to a stitch at a needle at a height. -/
def leadTo (f : Fabric α) (lane : Lane) (direction : Direction) (n : Needle) (place : LoopPlace)
    (height : α) : Fabric α :=
  let x := f.geometry.boxStart direction n.index + f.geometry.laneOffset direction lane
  let lo := min n.index place.needle.index
  let hi := max n.index place.needle.index
  { f with
    store := f.store.modifyPath lane.index fun p => p.modifyLastLoop fun l => l.endAt x height
    heights := f.heights.raiseRange lo hi .rightOf lane.index height }

/-- Leads the last loop of a lane to a needle. Gives the height at which the yarn arrives there:
`height`, clear of the crossed lanes, for the first stitch of a lane. -/
def reach (f : Fabric α) (lane : Lane) (direction : Direction) (n : Needle) (height : α) :
    Fabric α × α :=
  match f.tail? lane.index with
  | none => (f, f.clearCrossed height n lane)
  | some (place, tail) =>
    let arrives := f.arrival lane n place tail
    (f.leadTo lane direction n place arrives, arrives)

/-! ## Stitches -/

/-- The points of a stitch, its head drawn at a height of its own if one is given. -/
def outline (g : Geometry α) (spec : StitchSpec α) (head : Option α) : List (Point α) :=
  let points := g.stitchBox spec
  match head with
  | none => points
  | some height =>
    (points.zip (g.stitchBox { spec with height })).mapIdx fun i (p, q) =>
      if inKnitHead i then q else p

/-- Makes a stitch at a needle, with its base at a height and its head at another if one is given.
A knit is pulled through the loops on its needle, which leave it. -/
def place (f : Fabric α) (direction : Direction) (n : Needle) (lane : Lane) (height : α)
    (head : Option α) (knit : Bool) : Fabric α × LoopPlace :=
  -- The row is chosen by the path as it is before the last loop is led here.
  let row := (f.store.path lane.index).nextRow direction n knit
  let (f, carrierHeight) := f.reach lane direction n height
  let points := outline f.geometry ⟨direction, n, lane, height, carrierHeight⟩ head
  let l : Loop α := ⟨points, lane.index, direction⟩
  let f := { f with store := f.store.modifyPath lane.index fun p => p.addLoop row n knit l }
  let f := if knit then f.setHeld n ⟨lane.index, row⟩ else f.addHeld n ⟨lane.index, row⟩
  let top := f.geometry.headHeight (head.getD height)
  let heights := f.heights.raise (.place n.index .corridor lane.index) carrierHeight
  let heights := heights.raise (.place n.index (.ofSide n.bed.side) lane.index) top
  ({ f with heights }, ⟨row, n⟩)

/-- Knits a loop. It stands on the loops of its needle, or else as high as its neighbours; where the
neighbours stand higher than it does, its head is lifted to them. -/
def knit (f : Fabric α) (direction : Direction) (n : Needle) (lane : Lane) : Fabric α × LoopPlace :=
  let top := f.neighbourHeight n
  let bottom := match f.baseHeight? n with
    | some h => h + f.geometry.boxSpacing
    | none => top
  f.place direction n lane bottom (if lt bottom top then some top else none) true

/-- Tucks a loop beside the loops of its needle, or as high as its neighbours. -/
def tuck (f : Fabric α) (direction : Direction) (n : Needle) (lane : Lane) : Fabric α × LoopPlace :=
  let height := (f.baseHeight? n).getD (f.neighbourHeight n)
  f.place direction n lane height none false

/-! ## Moving and dropping loops -/

/-- The head that a loop like `l` has at a needle after a transfer: that of a stitch there, a little
lower. -/
def transferHead (f : Fabric α) (l : Loop α) (target : Needle) (laneCount : Nat) (height : α) :
    List (Point α) :=
  let g := f.geometry
  let sink : Point α := ⟨ofNat 0 * g.epsilon, ofNat 1 * g.epsilon, ofNat 0 * g.epsilon⟩
  (g.stitchBox ⟨l.direction, target, ⟨l.carrier, laneCount⟩, height, height⟩).map
    fun p => p.sub sink

/-- Moves the loops of one row from a needle to another, where their heads are drawn anew at a
height. -/
def moveRow (f : Fabric α) (source target : Needle) (laneCount : Nat) (height : α) (h : Held) :
    Fabric α × List Event :=
  match (f.store.row? h.lane h.row).bind (·.slot? source) with
  | none => (f, [])
  | some loops =>
    -- The loops leave the source before they join the target, which may be the same needle.
    let cleared := f.store.modifyRow h.lane h.row fun r => r.clear source
    match loops with
    | [] => ({ f with store := cleared }, [])
    | first :: _ =>
      let head := f.transferHead first target laneCount height
      let moved := loops.map fun l => l.withHead head
      let store := cleared.modifyPath h.lane fun p =>
        p.land h.row source target first.direction moved
      (({ f with store }).addHeld target h,
        [.moved loops.length h.lane h.row source target])

/-- Moves every loop on a needle to another, beside what that holds. -/
def transfer (f : Fabric α) (source target : Needle) (laneCount : Nat) :
    Except Warning (Fabric α × List Event) :=
  match f.baseHeight? source with
  | none => .error (.emptyTransfer source)
  | some sourceHeight =>
    -- Both heights are read before anything moves.
    let height := (f.baseHeight? target).getD sourceHeight
    .ok <| (f.heldAt source).foldl (fun (f, events) h =>
      let (f, more) := f.moveRow source target laneCount height h
      (f, events ++ more)) (f.clearHeld source, [])

/-- Lets the loops on a needle go. They stay in the yarn. -/
def drop (f : Fabric α) (n : Needle) : Except Warning (Fabric α × List Event) :=
  match f.heldAt n with
  | [] => .error (.emptyDrop n)
  | rows => .ok (f.clearHeld n, [.dropped n rows.length])

end Fabric

end Knitting
