import Knitting.Stitch
import Knitting.Yarn.Row

set_option autoImplicit false

/-! # Yarn paths

The yarn of one carrier is a path: its rows in order, and where the loop is that it made last. -/

namespace Knitting

/-- The loop with the points of its head that a transfer draws anew taken from `points`. -/
def Loop.withHead {α : Type} (l : Loop α) (points : List (Point α)) : Loop α :=
  { l with points := l.points.mapIdx fun i p =>
    if inTransferHead i then (points[i]?).getD p else p }

/-- Where in a path a loop is. -/
structure LoopPlace where
  row : Nat
  needle : Needle
  deriving DecidableEq, Repr

/-- The yarn of one carrier. -/
structure YarnPath (α : Type) where
  rows : List (Row α)
  /-- Where the loop is that the carrier made last. -/
  last : Option LoopPlace

namespace YarnPath

variable {α : Type}

def empty : YarnPath α := ⟨[], none⟩

instance : Inhabited (YarnPath α) := ⟨empty⟩

/-- The loop that the carrier made last: the newest at its place. -/
def lastLoop? (p : YarnPath α) : Option (Loop α) := do
  let place ← p.last
  let row ← p.rows[place.row]?
  let loops ← row.slot? place.needle
  loops.getLast?

def modifyRow (p : YarnPath α) (i : Nat) (f : Row α → Row α) : YarnPath α :=
  { p with rows := p.rows.modify i f }

def modifyLastLoop (p : YarnPath α) (f : Loop α → Loop α) : YarnPath α :=
  match p.last with
  | none => p
  | some place =>
    p.modifyRow place.row fun row =>
      match row.slot? place.needle with
      | none => row
      | some loops => row.setSlot place.needle (loops.modify (loops.length - 1) f)

/-- The path with a row of number `i`: rows that are missing up to it are opened in a direction. -/
def openRow (p : YarnPath α) (i : Nat) (direction : Direction) : YarnPath α :=
  { p with rows := p.rows ++ List.replicate (i + 1 - p.rows.length) (Row.empty direction) }

/-- The row that a stitch belongs to. A sweep in another direction is a new row, and so is a knit on
a needle where the row has loops already. -/
def nextRow (p : YarnPath α) (direction : Direction) (n : Needle) (knit : Bool) : Nat :=
  match p.rows.getLast? with
  | none => 0
  | some row =>
    if row.direction ≠ direction || (knit && row.holds n) then p.rows.length
    else p.rows.length - 1

/-- The path with a loop added to a row, where it is the last of the path. A knit takes the place of
what the row has at the needle, a tuck joins it. -/
def addLoop (p : YarnPath α) (i : Nat) (n : Needle) (knit : Bool) (l : Loop α) : YarnPath α :=
  { (p.openRow i l.direction).modifyRow i fun row =>
      if knit then row.replace n l else row.extend n [l] with
    last := some ⟨i, n⟩ }

/-- The path with loops of a row that were at `source` put at `target`. The last loop of the path
goes along if it was one of them. -/
def land (p : YarnPath α) (i : Nat) (source target : Needle) (direction : Direction)
    (loops : List (Loop α)) : YarnPath α :=
  { (p.openRow i direction).modifyRow i fun row => row.extend target loops with
    last := p.last.map fun last => if last = ⟨i, source⟩ then ⟨i, target⟩ else last }

/-- The loops that a row of a path has at a needle. -/
def loopsOn (p : YarnPath α) (i : Nat) (n : Needle) : List (Loop α) :=
  ((p.rows[i]?).map (·.loopsOn n)).getD []

/-- The loops of a path in the order in which their yarn is written. -/
def loops (p : YarnPath α) : List (Loop α) := p.rows.flatMap Row.loops

/-! ## What a write leaves in each row -/

theorem getElem?_modifyRow (p : YarnPath α) (i j : Nat) (f : Row α → Row α) :
    (p.modifyRow i f).rows[j]? = if j = i then (p.rows[i]?).map f else p.rows[j]? := by
  rw [modifyRow, List.getElem?_modify]
  by_cases h : j = i
  · simp [h]
  · simp [h, Ne.symm h]

@[simp] theorem length_modifyRow (p : YarnPath α) (i : Nat) (f : Row α → Row α) :
    (p.modifyRow i f).rows.length = p.rows.length := by
  simp [modifyRow]

theorem getElem?_openRow {p : YarnPath α} {i : Nat} (h : i ≤ p.rows.length) (j : Nat)
    (direction : Direction) :
    (p.openRow i direction).rows[j]? =
      if j = i then some ((p.rows[i]?).getD (.empty direction)) else p.rows[j]? := by
  rcases Nat.lt_or_eq_of_le h with hi | rfl
  · have hnone : i + 1 - p.rows.length = 0 := by omega
    simp only [openRow, hnone, List.replicate_zero, List.append_nil]
    split
    · simp_all
    · rfl
  · have hone : p.rows.length + 1 - p.rows.length = 1 := by omega
    simp only [openRow, hone, List.replicate_one]
    by_cases hj : j = p.rows.length
    · simp [hj]
    · rw [if_neg hj]
      rcases Nat.lt_or_gt_of_ne hj with hlt | hgt
      · exact List.getElem?_append_left hlt
      · rw [List.getElem?_eq_none (by simp; omega), List.getElem?_eq_none (by omega)]

theorem nextRow_le_length (p : YarnPath α) (direction : Direction) (n : Needle) (knit : Bool) :
    p.nextRow direction n knit ≤ p.rows.length := by
  unfold nextRow
  split
  · omega
  · split <;> omega

theorem getElem?_addLoop {p : YarnPath α} {i : Nat} (h : i ≤ p.rows.length) (j : Nat) (n : Needle)
    (knit : Bool) (l : Loop α) :
    (p.addLoop i n knit l).rows[j]? =
      if j = i then
        let row := (p.rows[i]?).getD (.empty l.direction)
        some (if knit then row.replace n l else row.extend n [l])
      else p.rows[j]? := by
  simp only [addLoop, getElem?_modifyRow, getElem?_openRow h]
  split <;> simp

theorem getElem?_land {p : YarnPath α} {i : Nat} (h : i ≤ p.rows.length) (j : Nat)
    (source target : Needle) (direction : Direction) (loops : List (Loop α)) :
    (p.land i source target direction loops).rows[j]? =
      if j = i then some (((p.rows[i]?).getD (.empty direction)).extend target loops)
      else p.rows[j]? := by
  simp only [land, getElem?_modifyRow, getElem?_openRow h]
  split <;> simp

/-! ## What a write leaves at each needle of a row -/

theorem loopsOn_addLoop {p : YarnPath α} {i : Nat} (h : i ≤ p.rows.length) (j : Nat)
    (n m : Needle) (knit : Bool) (l : Loop α) :
    (p.addLoop i n knit l).loopsOn j m =
      if j = i ∧ m = n then if knit then [l] else p.loopsOn i n ++ [l] else p.loopsOn j m := by
  have hrow : ∀ m, ((p.rows[i]?).getD (.empty l.direction)).loopsOn m = p.loopsOn i m := by
    intro m
    unfold loopsOn
    cases p.rows[i]? <;> rfl
  rw [loopsOn, getElem?_addLoop h]
  by_cases hj : j = i
  · subst hj
    cases knit <;> simp [Row.replace, Row.loopsOn_setSlot, Row.loopsOn_extend, hrow]
  · simp [hj, loopsOn]

theorem loopsOn_land {p : YarnPath α} {i : Nat} (h : i ≤ p.rows.length) (j : Nat)
    (source target m : Needle) (direction : Direction) (loops : List (Loop α)) :
    (p.land i source target direction loops).loopsOn j m =
      if j = i ∧ m = target then p.loopsOn i target ++ loops else p.loopsOn j m := by
  have hrow : ∀ m, ((p.rows[i]?).getD (.empty direction)).loopsOn m = p.loopsOn i m := by
    intro m
    unfold loopsOn
    cases p.rows[i]? <;> rfl
  rw [loopsOn, getElem?_land h]
  by_cases hj : j = i
  · subst hj
    simp [Row.loopsOn_extend, hrow]
  · simp [hj, loopsOn]

theorem loopsOn_clear (p : YarnPath α) (i j : Nat) (n m : Needle) :
    (p.modifyRow i fun row => row.clear n).loopsOn j m =
      if j = i ∧ m = n then [] else p.loopsOn j m := by
  rw [loopsOn, getElem?_modifyRow]
  by_cases hj : j = i
  · subst hj
    cases h : p.rows[j]? with
    | none => simp [loopsOn, h]
    | some row =>
      simp only [if_true, Option.map_some, Option.getD_some, Row.loopsOn_clear, true_and, loopsOn,
        h]
  · simp [hj, loopsOn]

theorem lastLoop?_eq (p : YarnPath α) :
    p.lastLoop? = p.last.bind fun place => (p.loopsOn place.row place.needle).getLast? := by
  unfold lastLoop? loopsOn Row.loopsOn
  cases p.last with
  | none => rfl
  | some place =>
    cases h : p.rows[place.row]? with
    | none => simp [h]
    | some row => cases hs : row.slot? place.needle <;> simp [h, hs]

@[simp] theorem last_modifyLastLoop (p : YarnPath α) (f : Loop α → Loop α) :
    (p.modifyLastLoop f).last = p.last := by
  unfold modifyLastLoop
  split <;> simp_all [modifyRow]

@[simp] theorem length_modifyLastLoop (p : YarnPath α) (f : Loop α → Loop α) :
    (p.modifyLastLoop f).rows.length = p.rows.length := by
  unfold modifyLastLoop
  split <;> simp

/-- A change of the last loop is a change of the newest loop at its place. -/
theorem getElem?_modifyLastLoop (p : YarnPath α) (f : Loop α → Loop α) (j : Nat) :
    (p.modifyLastLoop f).rows[j]? = (p.rows[j]?).map fun row =>
      match p.last with
      | none => row
      | some place =>
        if place.row = j ∧ row.holds place.needle then
          row.setSlot place.needle
            ((row.loopsOn place.needle).modify ((row.loopsOn place.needle).length - 1) f)
        else row := by
  unfold modifyLastLoop
  cases p.last with
  | none => simp
  | some place =>
    simp only [getElem?_modifyRow]
    by_cases hj : j = place.row
    · subst hj
      simp only [if_true, true_and]
      congr 1
      funext row
      unfold Row.holds Row.loopsOn
      cases row.slot? place.needle <;> rfl
    · have hne : place.row ≠ j := Ne.symm hj
      simp [hj, hne]

theorem loopsOn_modifyLastLoop (p : YarnPath α) (f : Loop α → Loop α) (j : Nat) (m : Needle) :
    (p.modifyLastLoop f).loopsOn j m =
      if p.last = some ⟨j, m⟩ then (p.loopsOn j m).modify ((p.loopsOn j m).length - 1) f
      else p.loopsOn j m := by
  rw [loopsOn, getElem?_modifyLastLoop]
  cases hrow : p.rows[j]? with
  | none => simp [loopsOn, hrow]
  | some row =>
    have hloops : p.loopsOn j m = row.loopsOn m := by simp [loopsOn, hrow]
    rw [hloops]
    cases hlast : p.last with
    | none => simp
    | some place =>
      obtain ⟨i, n⟩ := place
      simp only [Option.map_some, Option.getD_some, Option.some.injEq, LoopPlace.mk.injEq]
      by_cases hplace : i = j ∧ n = m
      · obtain ⟨rfl, rfl⟩ := hplace
        by_cases hheld : row.holds n
        · simp [hheld, Row.loopsOn_setSlot]
        · have hempty : row.loopsOn n = [] := by
            have hnone : row.slot? n = none := by simpa [Row.holds] using hheld
            simp [Row.loopsOn, hnone]
          simp [hheld, hempty]
      · rw [if_neg hplace]
        split
        · next h =>
          rw [Row.loopsOn_setSlot, if_neg fun hm => hplace ⟨h.1, hm.symm⟩]
        · rfl

end YarnPath

end Knitting
