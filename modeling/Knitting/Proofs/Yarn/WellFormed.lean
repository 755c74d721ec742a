import Knitting.Yarn.Store
import Mathlib.Data.List.Basic

set_option autoImplicit false

/-! # Well-formed rows and paths

A row keeps no empty slot and no bed without slots, and all of its loops are of its lane and its
direction. A path is made of such rows, each with a loop, and knows a place that has loops as that
of its last one. Every write to a path keeps this (`YarnPath.WellFormed`); a row may be without
loops only while it is being written to, which is what `Row.Tidy` is for. -/

namespace Knitting

variable {α : Type}

/-! ## Loops -/

/-- A loop of a lane and a direction, with all of its points. -/
structure Loop.BelongsTo (l : Loop α) (lane : Nat) (direction : Direction) : Prop where
  carrier : l.carrier = lane
  direction : l.direction = direction
  points : l.points.length = loopPoints

theorem Loop.BelongsTo.endAt {l : Loop α} {lane : Nat} {direction : Direction}
    (h : l.BelongsTo lane direction) (x y : α) : (l.endAt x y).BelongsTo lane direction := by
  unfold Loop.endAt
  dsimp only
  split
  · exact h
  · exact ⟨h.carrier, h.direction, by rw [List.length_mapIdx]; exact h.points⟩

theorem Loop.BelongsTo.withHead {l : Loop α} {lane : Nat} {direction : Direction}
    (h : l.BelongsTo lane direction) (head : List (Point α)) :
    (l.withHead head).BelongsTo lane direction :=
  ⟨h.carrier, h.direction, by rw [Loop.withHead, List.length_mapIdx]; exact h.points⟩

/-! ## Rows -/

namespace Row

/-- A row of a lane that keeps no empty slot and no bed without slots. -/
structure Tidy (r : Row α) (lane : Nat) : Prop where
  pruned : r.beds.Pruned
  slots : ∀ n loops, r.slot? n = some loops →
    loops ≠ [] ∧ ∀ l ∈ loops, l.BelongsTo lane r.direction

/-- A tidy row that has a loop. -/
structure WellFormed (r : Row α) (lane : Nat) : Prop extends r.Tidy lane where
  occupied : ∃ n, r.loopsOn n ≠ []

theorem tidy_empty (lane : Nat) (direction : Direction) :
    (empty direction : Row α).Tidy lane where
  pruned := NeedleTable.pruned_empty
  slots n loops h := by simp at h

theorem Tidy.belongsTo {r : Row α} {lane : Nat} (h : r.Tidy lane) {n : Needle} {l : Loop α}
    (hl : l ∈ r.loopsOn n) : l.BelongsTo lane r.direction :=
  (h.slots n _ (slot?_eq_some_of_loopsOn (List.ne_nil_of_mem hl))).2 l hl

theorem Tidy.setSlot {r : Row α} {lane : Nat} (h : r.Tidy lane) (n : Needle)
    {loops : List (Loop α)} (hne : loops ≠ [])
    (hloops : ∀ l ∈ loops, l.BelongsTo lane r.direction) : (r.setSlot n loops).Tidy lane where
  pruned := NeedleTable.pruned_put h.pruned n loops
  slots m others hm := by
    rw [slot?_setSlot] at hm
    split at hm
    · obtain rfl := Option.some.inj hm
      exact ⟨hne, hloops⟩
    · exact h.slots m others hm

theorem Tidy.clear {r : Row α} {lane : Nat} (h : r.Tidy lane) (n : Needle) :
    (r.clear n).Tidy lane where
  pruned := NeedleTable.pruned_remove h.pruned n
  slots m others hm := by
    rw [slot?_clear] at hm
    split at hm
    · simp at hm
    · exact h.slots m others hm

theorem Tidy.extend {r : Row α} {lane : Nat} (h : r.Tidy lane) (n : Needle)
    {loops : List (Loop α)} (hloops : ∀ l ∈ loops, l.BelongsTo lane r.direction) :
    (r.extend n loops).Tidy lane := by
  unfold Row.extend
  dsimp only
  split
  · exact h.clear n
  · next hne =>
    refine h.setSlot n (by simpa using hne) ?_
    intro l hl
    rcases List.mem_append.1 hl with hl | hl
    · exact h.belongsTo hl
    · exact hloops l hl

/-- A tidy row has a slot just where it has loops. -/
theorem Tidy.slot?_eq {r : Row α} {lane : Nat} (h : r.Tidy lane) (n : Needle) :
    r.slot? n = if r.loopsOn n = [] then none else some (r.loopsOn n) := by
  unfold loopsOn
  cases hs : r.slot? n with
  | none => rfl
  | some loops => simp [(h.slots n loops hs).1]

/-- Tidy rows with the same loops at each needle are equal. -/
theorem Tidy.ext {r s : Row α} {lane : Nat} (hr : r.Tidy lane) (hs : s.Tidy lane)
    (hdirection : r.direction = s.direction) (hloops : ∀ n, r.loopsOn n = s.loopsOn n) : r = s := by
  have hbeds : r.beds = s.beds := by
    refine NeedleTable.ext_at? hr.pruned hs.pruned ?_
    intro n
    have hslot : r.slot? n = s.slot? n := by rw [hr.slot?_eq, hs.slot?_eq, hloops]
    exact hslot
  cases r
  cases s
  simp_all

end Row

/-! ## Paths -/

namespace YarnPath

/-- Every row of a path is well-formed. -/
def RowsWellFormed (p : YarnPath α) (lane : Nat) : Prop :=
  ∀ (i : Nat) (row : Row α), p.rows[i]? = some row → row.WellFormed lane

/-- A path of a lane whose rows are well-formed and whose last loop is where it says. -/
structure WellFormed (p : YarnPath α) (lane : Nat) : Prop where
  rows : p.RowsWellFormed lane
  last : ∃ place, p.last = some place ∧ p.loopsOn place.row place.needle ≠ []

/-- The row that a stitch belongs to is new, or else it is of the same direction and, if the stitch
is a knit, has nothing at its needle. -/
theorem nextRow_eq_length_or (p : YarnPath α) (direction : Direction) (n : Needle) (knit : Bool) :
    p.nextRow direction n knit = p.rows.length ∨
      ∃ row, p.rows[p.nextRow direction n knit]? = some row ∧ row.direction = direction ∧
        (knit = true → row.holds n = false) := by
  unfold nextRow
  cases h : p.rows.getLast? with
  | none => exact .inl (by simp [List.getLast?_eq_none_iff.1 h])
  | some row =>
    dsimp only
    split
    · exact .inl rfl
    · next hsame =>
      simp only [ne_eq, Bool.or_eq_true, decide_eq_true_eq, Bool.and_eq_true, not_or,
        Decidable.not_not, not_and, Bool.not_eq_true] at hsame
      refine .inr ⟨row, ?_, hsame.1, hsame.2⟩
      rwa [List.getLast?_eq_getElem?] at h

theorem RowsWellFormed.belongsTo {p : YarnPath α} {lane : Nat} (h : p.RowsWellFormed lane)
    {i : Nat} {n : Needle} {l : Loop α} (hl : l ∈ p.loopsOn i n) :
    ∃ row, p.rows[i]? = some row ∧ l.BelongsTo lane row.direction := by
  unfold loopsOn at hl
  cases hrow : p.rows[i]? with
  | none => simp [hrow] at hl
  | some row =>
    simp only [hrow, Option.map_some, Option.getD_some] at hl
    exact ⟨row, rfl, (h i row hrow).belongsTo hl⟩

/-- A change of the last loop that keeps its lane, direction and points keeps the rows. -/
theorem RowsWellFormed.modifyLastLoop {p : YarnPath α} {lane : Nat} {f : Loop α → Loop α}
    (h : p.RowsWellFormed lane)
    (hf : ∀ l direction, l.BelongsTo lane direction → (f l).BelongsTo lane direction) :
    (p.modifyLastLoop f).RowsWellFormed lane := by
  intro i row hrow
  rw [getElem?_modifyLastLoop] at hrow
  obtain ⟨old, hold, rfl⟩ := Option.map_eq_some_iff.1 hrow
  have hwf := h i old hold
  cases hlast : p.last with
  | none => exact hwf
  | some place =>
    dsimp only
    split
    · next hat =>
      have hne : old.loopsOn place.needle ≠ [] := by
        obtain ⟨loops, hloops⟩ := Option.isSome_iff_exists.1 hat.2
        simpa [Row.loopsOn, hloops] using (hwf.slots _ _ hloops).1
      have hlen : (old.loopsOn place.needle).modify ((old.loopsOn place.needle).length - 1) f ≠
          [] := by
        rw [Ne, ← List.length_eq_zero_iff, List.length_modify, List.length_eq_zero_iff]
        exact hne
      refine ⟨hwf.setSlot _ hlen ?_, place.needle, ?_⟩
      · intro l hl
        obtain ⟨j, hj⟩ := List.mem_iff_getElem?.1 hl
        rw [List.getElem?_modify] at hj
        obtain ⟨l', hl', rfl⟩ := Option.map_eq_some_iff.1 hj
        have hmem := hwf.belongsTo (List.mem_of_getElem? hl')
        split
        · exact hf l' _ hmem
        · exact hmem
      · rwa [Row.loopsOn_setSlot, if_pos rfl]
    · exact hwf

/-- A path stays well-formed, and a new one becomes so, with a loop added to the row that it belongs
to. -/
theorem RowsWellFormed.addLoop {p : YarnPath α} {lane i : Nat} {direction : Direction}
    (h : p.RowsWellFormed lane)
    (hi : i = p.rows.length ∨ ∃ row, p.rows[i]? = some row ∧ row.direction = direction)
    (n : Needle) (knit : Bool) {l : Loop α} (hl : l.BelongsTo lane direction) :
    (p.addLoop i n knit l).WellFormed lane := by
  have hle : i ≤ p.rows.length := by
    rcases hi with rfl | ⟨row, hrow, -⟩
    · exact Nat.le_refl _
    · exact Nat.le_of_lt (List.getElem?_eq_some_iff.1 hrow).1
  -- The row that the loop joins is tidy and of the loop's direction.
  have hrow : ((p.rows[i]?).getD (.empty l.direction)).Tidy lane ∧
      ((p.rows[i]?).getD (.empty l.direction)).direction = direction := by
    rcases hi with rfl | ⟨row, hrow, hdir⟩
    · rw [List.getElem?_eq_none (Nat.le_refl _), Option.getD_none]
      exact ⟨Row.tidy_empty lane _, hl.direction⟩
    · rw [hrow, Option.getD_some]
      exact ⟨(h i row hrow).toTidy, hdir⟩
  have hmem : ∀ l' ∈ [l], l'.BelongsTo lane ((p.rows[i]?).getD (.empty l.direction)).direction := by
    intro l' hl'
    rw [List.mem_singleton.1 hl', hrow.2]
    exact hl
  refine ⟨?_, ⟨i, n⟩, rfl, ?_⟩
  · intro j row hj
    rw [getElem?_addLoop hle] at hj
    split at hj
    · obtain rfl := Option.some.inj hj
      cases knit
      · exact ⟨hrow.1.extend n hmem, n, by simp [Row.loopsOn_extend]⟩
      · exact ⟨hrow.1.setSlot n (by simp) hmem, n, by simp [Row.replace, Row.loopsOn_setSlot]⟩
    · exact h j row hj
  · rw [loopsOn_addLoop hle, if_pos ⟨rfl, rfl⟩]
    cases knit <;> simp

/-- A path stays well-formed when loops of one of its rows are taken from a needle and put at
another. -/
theorem WellFormed.move {p : YarnPath α} {lane i : Nat} (h : p.WellFormed lane) {row : Row α}
    (hrow : p.rows[i]? = some row) (source target : Needle) (direction : Direction)
    {moved : List (Loop α)} (hne : moved ≠ [])
    (hmoved : ∀ l ∈ moved, l.BelongsTo lane row.direction) :
    ((p.modifyRow i fun row => row.clear source).land i source target direction
      moved).WellFormed lane := by
  have hi : i ≤ (p.modifyRow i fun row => row.clear source).rows.length := by
    rw [length_modifyRow]
    exact Nat.le_of_lt (List.getElem?_eq_some_iff.1 hrow).1
  have hcleared : (p.modifyRow i fun row => row.clear source).rows[i]? =
      some (row.clear source) := by
    rw [getElem?_modifyRow, if_pos rfl, hrow, Option.map_some]
  refine ⟨?_, ?_⟩
  · intro j row' hj
    rw [getElem?_land hi, hcleared, Option.getD_some, getElem?_modifyRow] at hj
    split at hj
    · obtain rfl := Option.some.inj hj
      refine ⟨((h.rows i row hrow).toTidy.clear source).extend target hmoved, target, ?_⟩
      rw [Row.loopsOn_extend, if_pos rfl]
      exact List.append_ne_nil_of_right_ne_nil _ hne
    · exact h.rows j row' hj
  · -- The last loop is where it was, unless it was at the source and moved along.
    obtain ⟨⟨j, n⟩, hlast, hloops⟩ := h.last
    refine ⟨if LoopPlace.mk j n = ⟨i, source⟩ then ⟨i, target⟩ else ⟨j, n⟩, ?_, ?_⟩
    · simp only [land, modifyRow, hlast, Option.map_some]
    · by_cases hsource : LoopPlace.mk j n = ⟨i, source⟩
      · rw [if_pos hsource, loopsOn_land hi, if_pos ⟨rfl, rfl⟩]
        exact List.append_ne_nil_of_right_ne_nil _ hne
      · rw [if_neg hsource, loopsOn_land hi]
        split
        · exact List.append_ne_nil_of_right_ne_nil _ hne
        · rw [loopsOn_clear, if_neg (by simpa using hsource)]
          exact hloops

/-- What a path is apart from its loops: the directions of its rows, and where its last loop is. -/
def frame (p : YarnPath α) : List Direction × Option LoopPlace := (p.rows.map (·.direction), p.last)

/-- Well-formed paths with the same frame and the same loops are equal. -/
theorem RowsWellFormed.ext {p q : YarnPath α} {lane : Nat} (hp : p.RowsWellFormed lane)
    (hq : q.RowsWellFormed lane) (hframe : p.frame = q.frame)
    (hloops : ∀ i n, p.loopsOn i n = q.loopsOn i n) : p = q := by
  obtain ⟨hdirections, hlast⟩ := Prod.mk.inj hframe
  have hrows : p.rows = q.rows := by
    refine List.ext_getElem (by simpa using congrArg List.length hdirections) ?_
    intro i hi hi'
    have hrow := List.getElem?_eq_getElem hi
    have hrow' := List.getElem?_eq_getElem hi'
    refine (hp i _ hrow).toTidy.ext (hq i _ hrow').toTidy ?_ ?_
    · have hdirection := congrArg (fun ds => ds[i]?) hdirections
      simpa [hrow, hrow'] using hdirection
    · intro n
      simpa [loopsOn, hrow, hrow'] using hloops i n
  cases p
  cases q
  simp_all

end YarnPath

end Knitting
