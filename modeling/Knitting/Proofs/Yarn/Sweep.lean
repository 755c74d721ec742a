import Knitting.Proofs.Mirror.Yarn
import Knitting.Proofs.Pass.Blocks
import Mathlib.Data.List.ModifyLast
import Mathlib.Data.List.SplitBy

set_option autoImplicit false

/-! # Yarn in the order in which it was made

A row is written in the order of its needles, whatever the order in which its loops were made. Where
a lane goes onward with every stitch until it turns, the two are the same: a row has the stitches of
one run in one direction, each alone at its needle, and its sweep comes to them one after the other
(`Row.Follows`). A new stitch never joins a loop then, and so a path is its runs, row by row
(`YarnPath.Chronological`). -/

namespace Knitting

variable {α : Type}

/-- A stitch of a lane, with its loop as it is by now. -/
structure Stitched (α : Type) where
  direction : Direction
  needle : Needle
  loop : Loop α

/-- The stitch with its loop changed. -/
def Stitched.led (f : Loop α → Loop α) (s : Stitched α) : Stitched α := { s with loop := f s.loop }

/-- Two stitches in the same direction. -/
def Stitched.sameWay (s s' : Stitched α) : Bool := s.direction = s'.direction

/-- A change of the last loop of a history leaves where its stitches are. -/
theorem Stitched.map_place_modifyLast (history : List (Stitched α)) (f : Loop α → Loop α) :
    (history.modifyLast (led f)).map (fun s => (s.direction, s.needle)) =
      history.map fun s => (s.direction, s.needle) := by
  rcases List.eq_nil_or_concat' history with rfl | ⟨history, s, rfl⟩
  · rfl
  · simp [List.modifyLast_concat, led]

theorem Stitched.map_loop_modifyLast (history : List (Stitched α)) (f : Loop α → Loop α) :
    (history.modifyLast (led f)).map (·.loop) = (history.map (·.loop)).modifyLast f := by
  rcases List.eq_nil_or_concat' history with rfl | ⟨history, s, rfl⟩
  · rfl
  · simp [List.modifyLast_concat, led]

theorem Direction.Before.trans {direction : Direction} (h : direction ≠ .undirected) {a b c : Int}
    (hab : direction.Before a b) (hbc : direction.Before b c) : direction.Before a c := by
  cases direction with
  | right => exact Int.lt_trans hab hbc
  | left => exact Int.lt_trans hbc hab
  | undirected => exact absurd rfl h

/-! ## Rows -/

namespace Row

theorem noLater_of_before {direction : Direction} (h : direction ≠ .undirected) {n m : Needle}
    (hbefore : direction.Before n.index m.index) : noLater direction n m = true := by
  refine noLater_iff.2 (.inl ?_)
  cases direction with
  | right => exact hbefore
  | left => exact Int.neg_lt_neg hbefore
  | undirected => exact absurd rfl h

/-- A row has the loops of a run of stitches, each alone at its needle, and its sweep comes to every
one of them after those before it. -/
structure Follows (row : Row α) (run : List (Stitched α)) : Prop where
  directed : row.direction ≠ .undirected
  same : ∀ s ∈ run, s.direction = row.direction
  slot?_iff : ∀ n loops, row.slot? n = some loops ↔ ∃ s ∈ run, s.needle = n ∧ [s.loop] = loops
  onward : run.Pairwise fun s s' => row.direction.Before s.needle.index s'.needle.index

theorem follows_empty {direction : Direction} (h : direction ≠ .undirected) :
    (empty direction : Row α).Follows [] :=
  ⟨h, nofun, fun _ _ => by simp, .nil⟩

variable {row : Row α} {run : List (Stitched α)} {s : Stitched α}

/-- The sweep of a row comes to its stitches in the order in which they were made. -/
theorem Follows.traversal_eq (h : row.Follows run) :
    row.traversal = run.map fun s => (s.needle, [s.loop]) := by
  have hmem : ∀ e, e ∈ row.traversal ↔ e ∈ run.map fun s => (s.needle, [s.loop]) := by
    rintro ⟨n, loops⟩
    simp only [mem_traversal_iff, h.slot?_iff, List.mem_map, Prod.mk.injEq]
  have hnodup : (run.map fun s => (s.needle, [s.loop])).Nodup := by
    refine List.pairwise_map.2 (h.onward.imp ?_)
    intro s s' hbefore heq
    exact hbefore.ne (congrArg Needle.index (Prod.mk.inj heq).1)
  have hperm := (List.perm_ext_iff_of_nodup row.nodup_traversal.of_map hnodup).2 hmem
  refine hperm.eq_of_pairwise ?_ (List.pairwise_map.1 row.pairwise_traversal) ?_
  · rintro ⟨n, loops⟩ ⟨m, loops'⟩ hn hm hnm hmn
    obtain rfl : n = m := noLater_antisymm hnm hmn
    have hslot := mem_traversal_iff.1 hn
    have hslot' := mem_traversal_iff.1 ((hmem _).2 hm)
    rw [Option.some.inj (hslot.symm.trans hslot')]
  · exact List.pairwise_map.2 (h.onward.imp fun hbefore => noLater_of_before h.directed hbefore)

theorem Follows.loops_eq (h : row.Follows run) : row.loops = run.map (·.loop) := by
  rw [loops, h.traversal_eq, List.flatMap_map, List.map_eq_flatMap]

/-- What comes after the last stitch of a row comes after all of them. -/
theorem Follows.before (h : row.Follows run) {n : Needle}
    (hlast : ∀ s ∈ run.getLast?, row.direction.Before s.needle.index n.index) :
    ∀ s ∈ run, row.direction.Before s.needle.index n.index := by
  intro s hs
  obtain ⟨init, last, rfl⟩ := (List.eq_nil_or_concat' run).resolve_left (List.ne_nil_of_mem hs)
  have honward := hlast last (by simp)
  rcases List.mem_append.1 hs with hs | hs
  · exact ((List.pairwise_append.1 h.onward).2.2 s hs last (by simp)).trans h.directed honward
  · exact List.mem_singleton.1 hs ▸ honward

theorem Follows.holds_eq_false (h : row.Follows run) {n : Needle}
    (hlast : ∀ s ∈ run.getLast?, row.direction.Before s.needle.index n.index) :
    row.holds n = false := by
  rw [holds, Option.isSome_eq_false_iff, Option.isNone_iff_eq_none,
    Option.eq_none_iff_forall_ne_some]
  intro loops hloops
  obtain ⟨s, hs, rfl, -⟩ := (h.slot?_iff n loops).1 hloops
  exact (h.before hlast s hs).ne rfl

/-- The slots of a row after a write at a needle where none of a run was made. -/
theorem slot?_setSlot_iff (hnew : ∀ e ∈ run, e.needle ≠ s.needle)
    (hrow : ∀ n loops, n ≠ s.needle →
      (row.slot? n = some loops ↔ ∃ e ∈ run, e.needle = n ∧ [e.loop] = loops))
    (n : Needle) (loops : List (Loop α)) :
    (row.setSlot s.needle [s.loop]).slot? n = some loops ↔
      ∃ e ∈ run ++ [s], e.needle = n ∧ [e.loop] = loops := by
  rw [slot?_setSlot]
  by_cases hn : n = s.needle
  · rw [if_pos hn, Option.some.injEq]
    constructor
    · intro hloops
      exact ⟨s, by simp, hn.symm, hloops⟩
    · rintro ⟨e, he, hneedle, rfl⟩
      rcases List.mem_append.1 he with he | he
      · exact absurd (hneedle.trans hn) (hnew e he)
      · rw [List.mem_singleton.1 he]
  · rw [if_neg hn, hrow n loops hn]
    constructor
    · rintro ⟨e, he, hneedle, hloops⟩
      exact ⟨e, List.mem_append_left _ he, hneedle, hloops⟩
    · rintro ⟨e, he, rfl, hloops⟩
      rcases List.mem_append.1 he with he | he
      · exact ⟨e, he, rfl, hloops⟩
      · exact absurd (congrArg Stitched.needle (List.mem_singleton.1 he)) hn

/-- A row with a stitch at a needle where it has nothing yet. -/
theorem Follows.concat (h : row.Follows run) (hsame : s.direction = row.direction)
    (hlast : ∀ e ∈ run.getLast?, row.direction.Before e.needle.index s.needle.index) :
    (row.setSlot s.needle [s.loop]).Follows (run ++ [s]) := by
  have hbefore := h.before hlast
  refine ⟨h.directed, ?_, ?_, ?_⟩
  · exact List.forall_mem_append.2 ⟨h.same, by simpa using hsame⟩
  · refine slot?_setSlot_iff ?_ fun n loops _ => h.slot?_iff n loops
    intro e he hneedle
    exact (hbefore e he).ne (congrArg Needle.index hneedle)
  · refine List.pairwise_append.2 ⟨h.onward, List.pairwise_singleton _ _, ?_⟩
    intro e he e' he'
    exact List.mem_singleton.1 he' ▸ hbefore e he

/-- A row with the loop of its last stitch changed. -/
theorem Follows.led (h : row.Follows (run ++ [s])) (f : Loop α → Loop α) :
    (row.setSlot s.needle [f s.loop]).Follows (run ++ [s.led f]) := by
  obtain ⟨hrun, hlast⟩ := List.forall_mem_append.1 h.same
  obtain ⟨honward, -, hbefore⟩ := List.pairwise_append.1 h.onward
  refine ⟨h.directed, ?_, ?_, ?_⟩
  · exact List.forall_mem_append.2 ⟨hrun, by simpa [Stitched.led] using hlast⟩
  · refine slot?_setSlot_iff (s := s.led f) ?_ ?_
    · intro e he hneedle
      exact (hbefore e he s (by simp)).ne (congrArg Needle.index hneedle)
    · intro n loops hn
      rw [h.slot?_iff]
      constructor
      · rintro ⟨e, he, rfl, hloops⟩
        rcases List.mem_append.1 he with he | he
        · exact ⟨e, he, rfl, hloops⟩
        · exact absurd (congrArg Stitched.needle (List.mem_singleton.1 he)) hn
      · rintro ⟨e, he, hneedle, hloops⟩
        exact ⟨e, List.mem_append_left _ he, hneedle, hloops⟩
  · refine List.pairwise_append.2 ⟨honward, List.pairwise_singleton _ _, ?_⟩
    intro e he e' he'
    rw [List.mem_singleton.1 he']
    exact hbefore e he s (by simp)

/-- A stitch goes alone to a needle where its row has nothing. -/
theorem add_eq_setSlot {n : Needle} (h : row.holds n = false) (knit : Bool) (l : Loop α) :
    (if knit then row.replace n l else row.extend n [l]) = row.setSlot n [l] := by
  have hnone : row.slot? n = none := by simpa [holds] using h
  cases knit
  · simp [extend, hnone]
  · rfl

end Row

/-! ## Paths -/

namespace YarnPath

/-- Rows that have the stitches of a history one after the other, a row for each run in one
direction. -/
inductive Laid : List (Row α) → List (Stitched α) → Prop
  | nil : Laid [] []
  | concat {rows : List (Row α)} {history : List (Stitched α)} {row : Row α}
      {run : List (Stitched α)} (h : Laid rows history)
      (hturn : ∀ s ∈ history.getLast?, s.direction ≠ row.direction) (hrun : run ≠ [])
      (hrow : row.Follows run) : Laid (rows ++ [row]) (history ++ run)

variable {rows : List (Row α)} {history : List (Stitched α)}

/-- The rows are those of the runs. -/
theorem Laid.forall₂ (h : Laid rows history) :
    List.Forall₂ Row.Follows rows (history.splitBy Stitched.sameWay) := by
  induction h with
  | nil => exact .nil
  | @concat rows history row run h hturn hrun hrow ih =>
    have hsplit : ∀ s ∈ history.getLast?, ∀ s' ∈ run.head?, s.sameWay s' = false := by
      intro s hs s' hs'
      rw [Stitched.sameWay, decide_eq_false_iff_not, hrow.same s' (List.mem_of_mem_head? hs')]
      exact hturn s hs
    have hchain : run.IsChain fun s s' => s.sameWay s' = true := by
      refine List.Pairwise.isChain (List.Pairwise.imp_of_mem ?_ hrow.onward)
      intro s s' hs hs' _
      exact decide_eq_true ((hrow.same s hs).trans (hrow.same s' hs').symm)
    rw [List.splitBy_append hsplit, List.splitBy_of_isChain hrun hchain]
    exact List.rel_append ih (.cons hrow .nil)

/-- The rows are written in the order of the history. -/
theorem Laid.loops_eq (h : Laid rows history) :
    rows.flatMap Row.loops = history.map (·.loop) := by
  induction h with
  | nil => rfl
  | concat h hturn hrun hrow ih => simp [ih, hrow.loops_eq]

/-- A path has the stitches of a history, and its last loop is that of the last. -/
structure Chronological (p : YarnPath α) (history : List (Stitched α)) : Prop where
  laid : Laid p.rows history
  last : p.last = history.getLast?.map fun s => ⟨p.rows.length - 1, s.needle⟩

theorem chronological_empty : (empty : YarnPath α).Chronological [] := ⟨.nil, rfl⟩

variable {p : YarnPath α}

/-- A change of the last element of a list. -/
theorem modify_length_concat {β : Type} (l : List β) (b : β) (f : β → β) :
    (l ++ [b]).modify l.length f = l ++ [f b] := by
  induction l with
  | nil => rfl
  | cons a l ih => simp [ih]

theorem Chronological.modifyLastLoop (h : p.Chronological history) (f : Loop α → Loop α) :
    (p.modifyLastLoop f).Chronological (history.modifyLast (Stitched.led f)) := by
  obtain ⟨rows, last⟩ := p
  obtain ⟨hlaid, hlast⟩ := h
  dsimp only at hlaid hlast
  cases hlaid with
  | nil =>
    rw [hlast]
    exact chronological_empty
  | @concat rows history row run hlaid hturn hrun hrow =>
    obtain ⟨init, s, rfl⟩ := (List.eq_nil_or_concat' run).resolve_left hrun
    rw [← List.append_assoc, List.getLast?_concat, Option.map_some] at hlast
    have hslot : row.slot? s.needle = some [s.loop] :=
      (hrow.slot?_iff _ _).2 ⟨s, by simp, rfl, rfl⟩
    have hrows : (YarnPath.modifyLastLoop ⟨rows ++ [row], last⟩ f).rows =
        rows ++ [row.setSlot s.needle [f s.loop]] := by
      have hlength : (rows ++ [row]).length - 1 = rows.length := by simp
      simp only [YarnPath.modifyLastLoop, hlast, modifyRow, hlength, modify_length_concat, hslot]
      rfl
    rw [← List.append_assoc, List.modifyLast_concat]
    refine ⟨?_, ?_⟩
    · rw [hrows, List.append_assoc]
      exact .concat hlaid hturn (by simp) (hrow.led f)
    · rw [last_modifyLastLoop, hrows, hlast, List.getLast?_concat]
      simp [Stitched.led]

/-- Which row a stitch belongs to does not depend on what the last loop is. -/
theorem nextRow_modifyLastLoop (p : YarnPath α) (f : Loop α → Loop α) (direction : Direction)
    (n : Needle) (knit : Bool) :
    (p.modifyLastLoop f).nextRow direction n knit = p.nextRow direction n knit := by
  have hlast : ∀ row : Row α, ∀ place : LoopPlace, ∀ loops, row.holds place.needle = true →
      (row.setSlot place.needle loops).holds n = row.holds n := by
    intro row place loops hplace
    rw [Row.holds, Row.slot?_setSlot]
    split
    · next hn => rw [hn, hplace, Option.isSome_some]
    · rfl
  unfold nextRow
  rw [List.getLast?_eq_getElem?, List.getLast?_eq_getElem?, length_modifyLastLoop,
    getElem?_modifyLastLoop]
  cases p.rows[p.rows.length - 1]? with
  | none => rfl
  | some row =>
    cases p.last with
    | none => rfl
    | some place =>
      dsimp only [Option.map_some]
      split
      · next hat =>
        simp only [Row.direction_setSlot, hlast row place _ hat.2]
        rfl
      · rfl

/-- A loop added to the row behind the last opens it. -/
theorem rows_addLoop_length (p : YarnPath α) (n : Needle) (knit : Bool) (l : Loop α) :
    (p.addLoop p.rows.length n knit l).rows =
      p.rows ++ [(Row.empty l.direction).setSlot n [l]] := by
  have hone : p.rows.length + 1 - p.rows.length = 1 := by omega
  have hfree : (Row.empty l.direction : Row α).holds n = false := rfl
  simp only [addLoop, openRow, modifyRow, hone, List.replicate_one, modify_length_concat,
    Row.add_eq_setSlot hfree]

/-- A loop added to the last row. -/
theorem rows_addLoop_last {row : Row α} (hp : p.rows = rows ++ [row]) (n : Needle) (knit : Bool)
    (l : Loop α) (hfree : row.holds n = false) :
    (p.addLoop rows.length n knit l).rows = rows ++ [row.setSlot n [l]] := by
  have hzero : rows.length + 1 - (rows ++ [row]).length = 0 := by simp
  simp only [addLoop, openRow, modifyRow, hp, hzero, List.replicate_zero, List.append_nil,
    modify_length_concat, Row.add_eq_setSlot hfree]

/-- A stitch goes on with the last run or begins the next. -/
theorem Chronological.addLoop (h : p.Chronological history) {s : Stitched α}
    (hloop : s.loop.direction = s.direction) (hdirected : s.direction ≠ .undirected)
    (honward : ∀ e ∈ history.getLast?, e.direction = s.direction →
      e.direction.Before e.needle.index s.needle.index) (knit : Bool) :
    (p.addLoop (p.nextRow s.direction s.needle knit) s.needle knit s.loop).Chronological
      (history ++ [s]) := by
  have hnew : ∀ (hturn : ∀ e ∈ history.getLast?, e.direction ≠ s.direction),
      (p.addLoop p.rows.length s.needle knit s.loop).Chronological (history ++ [s]) := by
    intro hturn
    have hrow : ((Row.empty s.direction).setSlot s.needle [s.loop]).Follows [s] :=
      (Row.follows_empty hdirected).concat rfl (by simp)
    refine ⟨?_, ?_⟩
    · rw [rows_addLoop_length, hloop]
      exact .concat h.laid hturn (by simp) hrow
    · rw [rows_addLoop_length, List.getLast?_concat]
      simp [YarnPath.addLoop]
  obtain ⟨hlaid, hlast⟩ := h
  generalize hrows : p.rows = rows at hlaid
  cases hlaid with
  | nil =>
    have hnext : p.nextRow s.direction s.needle knit = p.rows.length := by simp [nextRow, hrows]
    rw [hnext]
    exact hnew (by simp)
  | @concat rows history row run hlaid hturn hrun hrow =>
    obtain ⟨init, e, rfl⟩ := (List.eq_nil_or_concat' run).resolve_left hrun
    have he : (history ++ (init ++ [e])).getLast? = some e := by
      rw [← List.append_assoc, List.getLast?_concat]
    have hsame : e.direction = row.direction := hrow.same e (by simp)
    rw [he] at honward hnew
    by_cases hdirection : row.direction = s.direction
    · have hbefore : ∀ e' ∈ (init ++ [e]).getLast?,
          row.direction.Before e'.needle.index s.needle.index := by
        rw [List.getLast?_concat]
        rintro _ ⟨⟩
        exact hsame ▸ honward e rfl (hsame.trans hdirection)
      have hfree : row.holds s.needle = false := hrow.holds_eq_false hbefore
      have hnext : p.nextRow s.direction s.needle knit = rows.length := by
        simp [nextRow, hrows, hdirection, hfree]
      rw [hnext]
      refine ⟨?_, ?_⟩
      · rw [rows_addLoop_last hrows _ _ _ hfree, List.append_assoc]
        exact .concat hlaid hturn (by simp) (hrow.concat hdirection.symm hbefore)
      · rw [rows_addLoop_last hrows _ _ _ hfree, List.getLast?_concat]
        simp [YarnPath.addLoop]
    · have hnext : p.nextRow s.direction s.needle knit = p.rows.length := by
        simp [nextRow, hrows, hdirection]
      rw [hnext]
      refine hnew ?_
      rintro _ ⟨⟩
      exact hsame ▸ hdirection

end YarnPath

end Knitting
