import Knitting.Needle.Table
import Knitting.Scalar

set_option autoImplicit false

/-! # Loops and rows

A row is what one carrier knits in one sweep. It keeps its loops by bed and index, and each loop
stays in the row in which it was made, however often it moves from needle to needle. -/

namespace Knitting

/-- The yarn of one stitch. -/
structure Loop (α : Type) where
  points : List (Point α)
  /-- The lane of the carrier that made it. -/
  carrier : Nat
  direction : Direction
  deriving DecidableEq, Repr

namespace Loop

variable {α : Type}

/-- The loop with its end at `x` and its last three points at height `y`. A loop of fewer points
has no way out that could be led anywhere. -/
def endAt (l : Loop α) (x y : α) : Loop α :=
  let count := l.points.length
  if count < 3 then l
  else { l with points := l.points.mapIdx fun i p =>
    ⟨if i + 1 = count then x else p.x, if count ≤ i + 3 then y else p.y, p.z⟩ }

end Loop

/-- The loops that one carrier makes in one sweep. -/
structure Row (α : Type) where
  direction : Direction
  /-- The loops at each index of each bed, oldest first. -/
  beds : NeedleTable (List (Loop α))

namespace Row

variable {α : Type}

def empty (direction : Direction) : Row α := ⟨direction, .empty⟩

/-- The loops of a row at a needle; `none` where it never had any or has none left. -/
def slot? (r : Row α) (n : Needle) : Option (List (Loop α)) := r.beds.at? n

def holds (r : Row α) (n : Needle) : Bool := (r.slot? n).isSome

/-- Puts loops at a needle in the place of those that the row has there. -/
def setSlot (r : Row α) (n : Needle) (loops : List (Loop α)) : Row α :=
  { r with beds := r.beds.put n loops }

/-- Makes a loop the only one at a needle. -/
def replace (r : Row α) (n : Needle) (loop : Loop α) : Row α := r.setSlot n [loop]

/-- Empties a needle, and its bed with its last needle. -/
def clear (r : Row α) (n : Needle) : Row α := { r with beds := r.beds.remove n }

def extend (r : Row α) (n : Needle) (loops : List (Loop α)) : Row α :=
  let all := (r.slot? n).getD [] ++ loops
  if all.isEmpty then r.clear n else r.setSlot n all

def loopsOn (r : Row α) (n : Needle) : List (Loop α) := (r.slot? n).getD []

/-! ## What a write leaves at each needle -/

@[simp] theorem slot?_empty (direction : Direction) (n : Needle) :
    (empty direction : Row α).slot? n = none := rfl

theorem slot?_setSlot (r : Row α) (n m : Needle) (loops : List (Loop α)) :
    (r.setSlot n loops).slot? m = if m = n then some loops else r.slot? m :=
  NeedleTable.at?_put ..

theorem slot?_clear (r : Row α) (n m : Needle) :
    (r.clear n).slot? m = if m = n then none else r.slot? m :=
  NeedleTable.at?_remove ..

@[simp] theorem direction_setSlot (r : Row α) (n : Needle) (loops : List (Loop α)) :
    (r.setSlot n loops).direction = r.direction := rfl

@[simp] theorem direction_replace (r : Row α) (n : Needle) (l : Loop α) :
    (r.replace n l).direction = r.direction := rfl

@[simp] theorem direction_clear (r : Row α) (n : Needle) : (r.clear n).direction = r.direction :=
  rfl

@[simp] theorem direction_extend (r : Row α) (n : Needle) (loops : List (Loop α)) :
    (r.extend n loops).direction = r.direction := by
  unfold extend
  dsimp only
  split <;> rfl

theorem loopsOn_setSlot (r : Row α) (n m : Needle) (loops : List (Loop α)) :
    (r.setSlot n loops).loopsOn m = if m = n then loops else r.loopsOn m := by
  rw [loopsOn, slot?_setSlot]
  split <;> rfl

theorem loopsOn_clear (r : Row α) (n m : Needle) :
    (r.clear n).loopsOn m = if m = n then [] else r.loopsOn m := by
  rw [loopsOn, slot?_clear]
  split <;> rfl

theorem loopsOn_extend (r : Row α) (n m : Needle) (loops : List (Loop α)) :
    (r.extend n loops).loopsOn m = if m = n then r.loopsOn n ++ loops else r.loopsOn m := by
  have hall : (r.slot? n).getD [] ++ loops = r.loopsOn n ++ loops := rfl
  simp only [extend, hall]
  by_cases h : (r.loopsOn n ++ loops).isEmpty
  · rw [if_pos h, loopsOn_clear]
    split
    · exact (List.isEmpty_iff.1 h).symm
    · rfl
  · rw [if_neg h, loopsOn_setSlot]

/-- Loops at a needle are a slot there. -/
theorem slot?_eq_some_of_loopsOn {r : Row α} {n : Needle} (h : r.loopsOn n ≠ []) :
    r.slot? n = some (r.loopsOn n) := by
  unfold loopsOn at h ⊢
  cases hs : r.slot? n <;> simp_all

/-! ## The order of a sweep -/

/-- The loops at each needle, bed by bed. -/
def slots (r : Row α) : List (Needle × List (Loop α)) :=
  r.beds.entries.flatMap fun (bed, needles) =>
    needles.entries.map fun (index, loops) => (⟨bed, index⟩, loops)

def loopCount (r : Row α) : Nat := r.slots.foldr (fun s count => s.2.length + count) 0

/-- Whether a sweep in a direction comes to needle `a` no later than to needle `b`. Where both have
the same index it goes from the front to the back. -/
def noLater (direction : Direction) (a b : Needle) : Bool :=
  if a.index = b.index then a.bed.rank ≤ b.bed.rank
  else if direction = .left then b.index < a.index
  else a.index < b.index

/-- The loops at each needle in the order of the sweep. -/
def traversal (r : Row α) : List (Needle × List (Loop α)) :=
  r.slots.mergeSort fun a b => noLater r.direction a.1 b.1

/-- The loops of a row in the order in which their yarn is written. -/
def loops (r : Row α) : List (Loop α) := r.traversal.flatMap (·.2)

end Row

end Knitting
