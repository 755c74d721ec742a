set_option autoImplicit false

/-! # Needles

A V-bed machine has two needle beds, each with a row of sliders just inside it. A needle is a
place on one of these four rows. Needles are ordered by row first, from the front bed to the back
bed, and then by index. -/

namespace Knitting

/-- The smallest index of a needle or slot. -/
def minIndex : Int := -Int.pow 2 31

/-- The largest index of a needle or slot. -/
def maxIndex : Int := Int.pow 2 31 - 1

/-- Whether a number is the index of a needle or slot. -/
def isIndex (n : Int) : Bool := minIndex ≤ n && n ≤ maxIndex

/-- A side of the machine. -/
inductive Side where
  | front
  | back
  deriving DecidableEq, Repr, Inhabited

/-- A row of needles or sliders. -/
inductive Bed where
  | front
  | frontSlider
  | backSlider
  | back
  deriving DecidableEq, Repr, Inhabited

namespace Bed

/-- Every bed, in the order in which loops at one index are written. -/
def all : List Bed := [front, frontSlider, backSlider, back]

def rank : Bed → Nat
  | front => 0
  | frontSlider => 1
  | backSlider => 2
  | back => 3

theorem rank_injective {a b : Bed} (h : a.rank = b.rank) : a = b := by
  cases a <;> cases b <;> simp_all [rank]

def side : Bed → Side
  | front => .front
  | frontSlider => .front
  | backSlider => .back
  | back => .back

def isFront (b : Bed) : Bool := b.side = .front

def isBack (b : Bed) : Bool := b.side = .back

/-- Whether a bed is a row of sliders, which hold loops but cannot stitch. -/
def isSlider : Bed → Bool
  | front => false
  | frontSlider => true
  | backSlider => true
  | back => false

/-- Whether a bed has hooks and can stitch. -/
def isHook (b : Bed) : Bool := !b.isSlider

def letters : Bed → String
  | front => "f"
  | frontSlider => "fs"
  | backSlider => "bs"
  | back => "b"

instance : Ord Bed := ⟨compareOn rank⟩

instance : Std.TransOrd Bed := inferInstanceAs (Std.TransCmp (compareOn rank))

instance : Std.LawfulEqOrd Bed where
  eq_of_compare h := rank_injective (Std.LawfulEqOrd.eq_of_compare h)

end Bed

/-- The direction of a carriage sweep. -/
inductive Direction where
  | left
  | right
  /-- For operations without yarn, which have no direction. -/
  | undirected
  deriving DecidableEq, Repr, Inhabited

namespace Direction

/-- The direction of a sweep back. -/
def opposite : Direction → Direction
  | left => right
  | right => left
  | undirected => undirected

@[simp] theorem opposite_opposite (direction : Direction) :
    direction.opposite.opposite = direction := by
  cases direction <;> rfl

theorem ne_opposite {direction : Direction} (h : direction ≠ undirected) :
    direction ≠ direction.opposite := by
  cases direction with
  | undirected => exact absurd rfl h
  | left => exact Direction.noConfusion
  | right => exact Direction.noConfusion

theorem opposite_ne_undirected {direction : Direction} (h : direction ≠ undirected) :
    direction.opposite ≠ undirected := by
  cases direction with
  | undirected => exact absurd rfl h
  | left => exact Direction.noConfusion
  | right => exact Direction.noConfusion

/-- The sign that stands for a direction; none stands for the missing one. -/
def sign : Direction → String
  | left => "-"
  | right => "+"
  | undirected => ""

def ofSign? (token : String) : Option Direction :=
  if token = "+" then some right else if token = "-" then some left else none

end Direction

/-- A needle or slider. -/
structure Needle where
  bed : Bed
  index : Int
  deriving DecidableEq, Repr, Inhabited

namespace Needle

def front (index : Int) : Needle := ⟨.front, index⟩

def back (index : Int) : Needle := ⟨.back, index⟩

def text (n : Needle) : String := n.bed.letters ++ toString n.index

/-- Bed first, index second. -/
def order : Needle → Needle → Ordering := compareLex (compareOn bed) (compareOn index)

instance : Ord Needle := ⟨order⟩

instance : Std.TransOrd Needle :=
  inferInstanceAs (Std.TransCmp (compareLex (compareOn bed) (compareOn index)))

instance : Std.LawfulEqOrd Needle where
  eq_of_compare {a b} h := by
    have h : compareLex (compareOn bed) (compareOn index) a b = .eq := h
    rw [compareLex_eq_eq] at h
    obtain ⟨ha, hb⟩ := h
    cases a
    cases b
    rw [Needle.mk.injEq]
    exact ⟨Std.LawfulEqOrd.eq_of_compare ha, Std.LawfulEqOrd.eq_of_compare hb⟩

end Needle

end Knitting
