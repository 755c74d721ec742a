import Knitting.Needle.Basic
import Knitting.Scalar
import Knitting.Table

set_option autoImplicit false

/-! # Recorded heights

A skyline along the needles that keeps yarn from running through yarn: for each needle, each part of
its column and each lane, the greatest height that yarn has reached there. -/

namespace Knitting

/-- A part of a needle's column. -/
inductive Orientation where
  /-- The lane above the needle. -/
  | corridor
  /-- The lane in the gap to the left of the needle. -/
  | leftOf
  /-- The lane in the gap to the right of the needle. -/
  | rightOf
  /-- The loop head on the front bed. -/
  | frontBed
  /-- The loop head on the back bed. -/
  | backBed
  deriving DecidableEq, Repr, Inhabited

namespace Orientation

/-- The place of a part in the order of recorded heights. -/
def rank : Orientation → Nat
  | corridor => 0
  | leftOf => 1
  | rightOf => 2
  | frontBed => 3
  | backBed => 4

theorem rank_injective {a b : Orientation} (h : a.rank = b.rank) : a = b := by
  cases a <;> cases b <;> simp_all [rank]

instance : Ord Orientation := ⟨compareOn rank⟩

instance : Std.TransOrd Orientation := inferInstanceAs (Std.TransCmp (compareOn rank))

instance : Std.LawfulEqOrd Orientation where
  eq_of_compare h := rank_injective (Std.LawfulEqOrd.eq_of_compare h)

/-- The part of the column that a loop head on a bed fills. -/
def ofSide : Side → Orientation
  | .front => frontBed
  | .back => backBed

end Orientation

/-- A place whose height is recorded. -/
structure HeightKey where
  needle : Int
  orientation : Orientation
  lane : Nat
  deriving DecidableEq, Repr

namespace HeightKey

/-- The place at a needle. The gap to the left of a needle is the gap to the right of its left
neighbour, and is recorded there; the leftmost needle has none and shares its right gap. -/
def place (needle : Int) (orientation : Orientation) (lane : Nat) : HeightKey :=
  match orientation with
  | .leftOf => ⟨max (needle - 1) minIndex, .rightOf, lane⟩
  | o => ⟨needle, o, lane⟩

/-- Needle first, then the part of the column, then the lane. -/
def order : HeightKey → HeightKey → Ordering :=
  compareLex (compareOn needle) (compareLex (compareOn orientation) (compareOn lane))

instance : Ord HeightKey := ⟨order⟩

instance : Std.TransOrd HeightKey :=
  inferInstanceAs (Std.TransCmp
    (compareLex (compareOn needle) (compareLex (compareOn orientation) (compareOn lane))))

instance : Std.LawfulEqOrd HeightKey where
  eq_of_compare {a b} h := by
    have h : compareLex (compareOn needle) (compareLex (compareOn orientation) (compareOn lane))
      a b = .eq := h
    rw [compareLex_eq_eq, compareLex_eq_eq] at h
    obtain ⟨hn, ho, hl⟩ := h
    cases a
    cases b
    rw [HeightKey.mk.injEq]
    exact ⟨Std.LawfulEqOrd.eq_of_compare hn, Std.LawfulEqOrd.eq_of_compare ho,
      Std.LawfulEqOrd.eq_of_compare hl⟩

end HeightKey

/-- The recorded heights. -/
structure HeightIndex (α : Type) where
  /-- The greatest height at each place that yarn has reached. -/
  table : Table HeightKey α

namespace HeightIndex

variable {α : Type}

def empty : HeightIndex α := ⟨.empty⟩

instance : Inhabited (HeightIndex α) := ⟨empty⟩

def get? (h : HeightIndex α) (key : HeightKey) : Option α := h.table.get? key

def size (h : HeightIndex α) : Nat := h.table.size

def isEmpty (h : HeightIndex α) : Bool := h.table.isEmpty

variable [Scalar α]

open Scalar

/-- Records a height at a place, unless something at least as high is there. -/
def raise (h : HeightIndex α) (key : HeightKey) (height : α) : HeightIndex α :=
  match h.get? key with
  | none => ⟨h.table.insert key height⟩
  | some there => if lt there height then ⟨h.table.insert key height⟩ else h

/-- Records a height at every needle from `lo` to before `hi`. -/
def raiseRange (h : HeightIndex α) (lo hi : Int) (orientation : Orientation) (lane : Nat)
    (height : α) : HeightIndex α :=
  (List.range (hi - lo).toNat).foldl
    (fun h (i : Nat) => h.raise (.place (lo + i) orientation lane) height) h

/-- The greatest height at the needles from `lo` to before `hi`. -/
def rangeMax (h : HeightIndex α) (lo hi : Int) (orientation : Orientation) (lane : Nat) :
    Option α :=
  if lo < hi then
    let first := HeightKey.place lo orientation lane
    let last := HeightKey.place (hi - 1) orientation lane
    -- A gap to the left is recorded as the one to the right of a neighbour, which shifts both ends.
    greatest? <| (h.table.entries.filter fun e =>
      e.1.orientation = first.orientation && e.1.lane = lane && first.needle ≤ e.1.needle &&
        e.1.needle ≤ last.needle).map (·.2)
  else none

/-- A height that is not below `floor` and clears what is `highest`: `floor` itself if that is
below it. -/
def lift (floor : α) (highest : Option α) (epsilon : α) : α :=
  match highest with
  | some top => if le floor top then top + epsilon else floor
  | none => floor

/-- A height from `floor` up that clears the gaps of a lane between two needles. -/
def clearSpan (h : HeightIndex α) (floor : α) (lo hi : Int) (lane : Nat) (epsilon : α) : α :=
  lift floor (h.rangeMax lo hi .rightOf lane) epsilon

/-- A height from `floor` up that clears lanes above a needle. -/
def clearLanes (h : HeightIndex α) (floor : α) (needle : Int) (lanes : List Nat) (epsilon : α) :
    α :=
  lift floor (greatest? (lanes.filterMap fun lane => h.get? (.place needle .corridor lane))) epsilon

end HeightIndex

end Knitting
