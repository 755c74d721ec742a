import Knitting.Fabric
import Knitting.Proofs.Bounds.Attempt

set_option autoImplicit false

/-! # Attempts on the recorded heights

A table can be asked for the entries between two keys only if the first key is not above the last,
and the needles of a span end one before a needle that may be the leftmost. Between two needles of
the machine neither goes wrong (`HeightIndex.tryRangeMax_eq_ok`). -/

namespace Knitting

/-- The entries of a table from one key up to another. -/
def Table.tryBetween {κ ν : Type} [Ord κ] (t : Table κ ν) (first last : κ) :
    Attempt (List (κ × ν)) :=
  if compare first last = .gt then .error .range
  else .ok (t.entries.filter fun e => (compare first e.1).isLE && (compare e.1 last).isLE)

/-- Places in the same part of the column and the same lane are in the order of their needles. -/
theorem HeightKey.isLE_compare_iff {a b : HeightKey} (horientation : a.orientation = b.orientation)
    (hlane : a.lane = b.lane) : (compare a b).isLE = true ↔ a.needle ≤ b.needle := by
  have hcompare : compare a b = compareLex (compareOn needle)
      (compareLex (compareOn orientation) (compareOn lane)) a b := rfl
  rw [hcompare, compareLex, compareLex, compareOn, compareOn, compareOn, horientation, hlane,
    Std.ReflOrd.compare_self, Std.ReflOrd.compare_self]
  cases h : compare a.needle b.needle with
  | lt => simpa using Int.le_of_lt (Int.compare_eq_lt.1 h)
  | eq => simpa using Int.le_of_eq (Int.compare_eq_eq.1 h)
  | gt => simpa using Int.compare_eq_gt.1 h

/-- What is between two needles is a needle. -/
theorem isIndex_between {lo hi n : Int} (hlo : isIndex lo = true) (hhi : isIndex hi = true)
    (h : lo ≤ n) (h' : n ≤ hi) : isIndex n = true := by
  simp only [isIndex, Bool.and_eq_true, decide_eq_true_eq] at hlo hhi ⊢
  omega

namespace HeightIndex

variable {α : Type} [Scalar α]

open Scalar

def tryRangeMax (h : HeightIndex α) (lo hi : Int) (orientation : Orientation) (lane : Nat) :
    Attempt (Option α) :=
  if lo < hi then do
    let first := HeightKey.place lo orientation lane
    let before ← Attempt.index (hi - 1)
    let last := HeightKey.place before orientation lane
    let entries ← h.table.tryBetween first last
    return greatest? ((entries.filter fun e =>
      e.1.orientation = first.orientation && e.1.lane = lane).map (·.2))
  else return none

/-- Between two needles the range of places is one, and it ends at a needle. -/
theorem tryRangeMax_eq_ok (h : HeightIndex α) {lo hi : Int} (hlo : isIndex lo = true)
    (hhi : isIndex hi = true) (orientation : Orientation) (lane : Nat) :
    h.tryRangeMax lo hi orientation lane = .ok (h.rangeMax lo hi orientation lane) := by
  unfold tryRangeMax rangeMax
  split
  · next hlt =>
    have hbefore : isIndex (hi - 1) = true := isIndex_between hlo hhi (by omega) (by omega)
    have hsame : ∀ n n' : Int,
        (HeightKey.place n orientation lane).orientation =
          (HeightKey.place n' orientation lane).orientation := by
      cases orientation <;> exact fun _ _ => rfl
    have hlane : ∀ n : Int, (HeightKey.place n orientation lane).lane = lane := by
      cases orientation <;> exact fun _ => rfl
    have hends : (HeightKey.place lo orientation lane).needle ≤
        (HeightKey.place (hi - 1) orientation lane).needle := by
      cases orientation <;> simp only [HeightKey.place] <;> omega
    have hrange : compare (HeightKey.place lo orientation lane)
        (HeightKey.place (hi - 1) orientation lane) ≠ .gt :=
      Ordering.isLE_iff_ne_gt.1
        ((HeightKey.isLE_compare_iff (hsame _ _) (by rw [hlane, hlane])).2 hends)
    dsimp only
    rw [Attempt.index_eq_ok hbefore, Attempt.ok_bind, Table.tryBetween, if_neg hrange,
      Attempt.ok_bind, List.filter_filter]
    dsimp only [pure, Except.pure]
    congr 4
    funext e
    -- What is in range is so by its needle, as soon as it is in the right part and lane.
    rw [Bool.eq_iff_iff]
    simp only [Bool.and_eq_true, decide_eq_true_eq]
    constructor
    · rintro ⟨⟨hpart, hl⟩, hfirst, hlast⟩
      rw [HeightKey.isLE_compare_iff hpart.symm (by rw [hlane, hl])] at hfirst
      rw [HeightKey.isLE_compare_iff (hpart.trans (hsame _ _)) (by rw [hlane, hl])] at hlast
      exact ⟨⟨⟨hpart, hl⟩, hfirst⟩, hlast⟩
    · rintro ⟨⟨⟨hpart, hl⟩, hfirst⟩, hlast⟩
      refine ⟨⟨hpart, hl⟩, ?_, ?_⟩
      · rwa [HeightKey.isLE_compare_iff hpart.symm (by rw [hlane, hl])]
      · rwa [HeightKey.isLE_compare_iff (hpart.trans (hsame _ _)) (by rw [hlane, hl])]
  · rfl

def tryRaiseRange (h : HeightIndex α) (lo hi : Int) (orientation : Orientation) (lane : Nat)
    (height : α) : Attempt (HeightIndex α) :=
  (List.range (hi - lo).toNat).foldlM (fun h (i : Nat) => do
    let n ← Attempt.index (lo + i)
    return h.raise (.place n orientation lane) height) h

theorem tryRaiseRange_eq_ok (h : HeightIndex α) {lo hi : Int} (hlo : isIndex lo = true)
    (hhi : isIndex hi = true) (orientation : Orientation) (lane : Nat) (height : α) :
    h.tryRaiseRange lo hi orientation lane height =
      .ok (h.raiseRange lo hi orientation lane height) := by
  refine Attempt.foldlM_eq_ok ?_ h
  intro h i hi'
  have hn : isIndex (lo + i) = true := by
    rw [List.mem_range] at hi'
    exact isIndex_between hlo hhi (by omega) (by omega)
  rw [Attempt.index_eq_ok hn]
  rfl

end HeightIndex

/-! ## Crossed lanes -/

/-- A lane whose number has a next one. -/
structure Lane.Within (room : Nat) (lane : Lane) : Prop where
  index : lane.index < lane.count
  count : lane.count ≤ room

namespace Fabric

variable {α : Type} [Scalar α]

open Scalar

def tryCrossedLanes (room : Nat) (n : Needle) (lane : Lane) : Attempt (List Nat) :=
  match n.bed.side with
  | .front => do
    let first ← Attempt.count room (lane.index + 1)
    return List.range' first (lane.count - first)
  | .back => return List.range lane.index

theorem filter_range_lt (i count : Nat) :
    (List.range count).filter (fun j => i < j) = List.range' (i + 1) (count - (i + 1)) := by
  induction count with
  | zero => simp
  | succ count ih =>
    rw [List.range_succ, List.filter_append, ih]
    by_cases h : i < count
    · obtain ⟨k, rfl⟩ := Nat.exists_eq_add_of_lt h
      have hnow : i + k + 1 - (i + 1) = k := by omega
      have hnext : i + k + 1 + 1 - (i + 1) = k + 1 := by omega
      have hlast : [i + k + 1].filter (fun j => decide (i < j)) = [i + 1 + 1 * k] := by
        rw [List.filter_cons_of_pos (by exact decide_eq_true h), List.filter_nil]
        simp only [List.cons.injEq, and_true]
        omega
      rw [hnow, hnext, hlast, List.range'_concat]
    · have hnow : count - (i + 1) = 0 := by omega
      have hnext : count + 1 - (i + 1) = 0 := by omega
      simp [hnow, hnext, h]

theorem tryCrossedLanes_eq_ok {room : Nat} {lane : Lane} (hlane : lane.Within room) (n : Needle) :
    tryCrossedLanes room n lane = .ok (crossedLanes n lane) := by
  unfold tryCrossedLanes crossedLanes
  cases n.bed.side with
  | front =>
    have hfirst : lane.index + 1 ≤ 2 * room + 1 := by
      have hindex := hlane.index
      have hcount := hlane.count
      omega
    rw [Attempt.count_eq_ok hfirst, Attempt.ok_bind]
    dsimp only
    rw [filter_range_lt]
    rfl
  | back => rfl

end Fabric

end Knitting
