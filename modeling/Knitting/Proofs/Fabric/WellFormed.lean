import Knitting.Proofs.Fabric.Effect
import Knitting.Proofs.Yarn.WellFormed
import Mathlib.Data.List.Induction
import Mathlib.Data.List.Nodup

set_option autoImplicit false

/-! # Well-formed fabrics

The record of held rows, the rows of the paths and the places of the last loops are edited
separately, and the fabric is read through all three. `Fabric.WellFormed` is what they agree on:
each row that a needle lists has loops there, nothing empty is kept, and every path knows where its
last loop is. It holds of the fabric without yarn and is kept by every call, so it holds after every
run (`wellFormed_run`). -/

namespace Knitting.Fabric

variable {α : Type}

/-! ## The record -/

/-- A record that keeps nothing empty and lists no row twice at a needle. -/
structure RecordWellFormed (t : NeedleTable (List Held)) : Prop where
  /-- No bed is without needles. -/
  pruned : t.Pruned
  /-- No needle is without rows, or has one twice. -/
  listed : ∀ n rows, t.at? n = some rows → rows ≠ [] ∧ rows.Nodup

namespace RecordWellFormed

theorem put {t : NeedleTable (List Held)} (ht : RecordWellFormed t) (n : Needle)
    {rows : List Held} (hne : rows ≠ []) (hnodup : rows.Nodup) :
    RecordWellFormed (t.put n rows) where
  pruned := NeedleTable.pruned_put ht.pruned n rows
  listed m others hm := by
    rw [NeedleTable.at?_put] at hm
    split at hm
    · obtain rfl := Option.some.inj hm
      exact ⟨hne, hnodup⟩
    · exact ht.listed m others hm

theorem remove {t : NeedleTable (List Held)} (ht : RecordWellFormed t) (n : Needle) :
    RecordWellFormed (t.remove n) where
  pruned := NeedleTable.pruned_remove ht.pruned n
  listed m rows hm := by
    rw [NeedleTable.at?_remove] at hm
    split at hm
    · simp at hm
    · exact ht.listed m rows hm

/-- A needle lists no row twice. -/
theorem nodup {f : Fabric α} (hf : RecordWellFormed f.held) (n : Needle) :
    (f.heldAt n).Nodup := by
  unfold heldAt
  cases h : f.held.at? n with
  | none => exact List.nodup_nil
  | some rows => exact (hf.listed n rows h).2

theorem addHeld {f : Fabric α} (hf : RecordWellFormed f.held) (n : Needle) (h : Held) :
    RecordWellFormed (f.addHeld n h).held := by
  rw [held_addHeld]
  split
  · exact hf
  · next hnew =>
    refine hf.put n (by simp) (List.nodup_append.2 ⟨hf.nodup n, List.nodup_singleton h, ?_⟩)
    intro k hk k' hk' hkk'
    exact hnew (List.mem_singleton.1 hk' ▸ hkk' ▸ hk)

end RecordWellFormed

/-! ## The fabric -/

/-- The record, the rows and the last loops of a fabric agree. -/
structure WellFormed (f : Fabric α) : Prop where
  /-- The record keeps nothing empty and nothing twice. -/
  record : RecordWellFormed f.held
  /-- A row that a needle lists has loops there. -/
  occupied : ∀ n, ∀ h ∈ f.heldAt n, f.rowLoops h n ≠ []
  /-- The paths are well-formed. -/
  paths : ∀ c p, f.store.path? c = some p → p.WellFormed c

theorem wellFormed_empty (g : Geometry α) : (empty g).WellFormed where
  record := ⟨NeedleTable.pruned_empty, fun n rows h => by simp [empty] at h⟩
  occupied n h hh := by simp [heldAt, empty] at hh
  paths c p h := by simp [empty, YarnStore.empty, YarnStore.path?] at h

theorem WellFormed.rows {f : Fabric α} (hf : f.WellFormed) (c : Nat) :
    (f.store.path c).RowsWellFormed c := by
  intro i row hrow
  unfold YarnStore.path at hrow
  cases hp : f.store.path? c with
  | none => simp [hp, YarnPath.empty] at hrow
  | some p =>
    rw [hp, Option.getD_some] at hrow
    exact (hf.paths c p hp).rows i row hrow

/-! ### What a fabric is read through -/

/-- Records that list the same rows at each needle are equal. -/
theorem RecordWellFormed.ext {f g : Fabric α} (hf : RecordWellFormed f.held)
    (hg : RecordWellFormed g.held) (hheld : ∀ n, f.heldAt n = g.heldAt n) : f.held = g.held := by
  have hat : ∀ {f : Fabric α}, RecordWellFormed f.held → ∀ n,
      f.held.at? n = if f.heldAt n = [] then none else some (f.heldAt n) := by
    intro f hf n
    unfold heldAt
    cases hrows : f.held.at? n with
    | none => rfl
    | some rows => simp [(hf.listed n rows hrows).1]
  refine NeedleTable.ext_at? hf.pruned hg.pruned ?_
  intro n
  rw [hat hf, hat hg, hheld]

/-- The frame of the path of a lane, if there is one. -/
def frame? (f : Fabric α) (c : Nat) : Option (List Direction × Option LoopPlace) :=
  (f.store.path? c).map YarnPath.frame

/-- Well-formed fabrics are equal if they have the same sizes and heights, list the same rows, and
have the same loops in paths of the same frames. -/
theorem WellFormed.ext {f g : Fabric α} (hf : f.WellFormed) (hg : g.WellFormed)
    (hgeometry : f.geometry = g.geometry) (hheights : f.heights = g.heights)
    (hheld : ∀ n, f.heldAt n = g.heldAt n) (hframe : ∀ c, f.frame? c = g.frame? c)
    (hloops : ∀ k n, f.rowLoops k n = g.rowLoops k n) : f = g := by
  have hpath : ∀ c, f.store.path? c = g.store.path? c := by
    intro c
    have hc := hframe c
    unfold frame? at hc
    cases hp : f.store.path? c with
    | none =>
      rw [hp, Option.map_none] at hc
      exact (Option.map_eq_none_iff.1 hc.symm).symm
    | some p =>
      obtain ⟨q, hq, hqp⟩ := Option.map_eq_some_iff.1 (hc.symm.trans (by rw [hp]; rfl))
      rw [hq]
      refine congrArg some ((hf.paths c p hp).rows.ext (hg.paths c q hq).rows hqp.symm ?_)
      intro i n
      have hi := hloops ⟨c, i⟩ n
      rwa [rowLoops_eq, rowLoops_eq, YarnStore.path, YarnStore.path, hp, hq] at hi
  have hstore : f.store = g.store := by
    have hpaths : f.store.paths = g.store.paths := Table.ext_get? hpath
    cases hfs : f.store
    cases hgs : g.store
    simp_all
  have hrecord : f.held = g.held := hf.record.ext hg.record hheld
  cases f
  cases g
  simp_all

/-! ### Without the rows of a needle -/

theorem WellFormed.clearHeld {f : Fabric α} (hf : f.WellFormed) (n : Needle) :
    (f.clearHeld n).WellFormed where
  record := hf.record.remove n
  occupied m h hh := by
    rw [heldAt_clearHeld] at hh
    split at hh
    · simp at hh
    · rw [rowLoops_congr (store_clearHeld f n)]
      exact hf.occupied m h hh
  paths := hf.paths

/-- A fabric within a transfer: the rows of `rows` are no longer listed at the source, but their
loops are still there. -/
structure Transit (f : Fabric α) (source : Needle) (rows : List Held) : Prop where
  wellFormed : f.WellFormed
  nodup : rows.Nodup
  pending : ∀ h ∈ rows, h ∉ f.heldAt source ∧ f.rowLoops h source ≠ []

/-- A transfer begins with the source cleared and all of its rows pending. -/
theorem transit_clearHeld {f : Fabric α} (hf : f.WellFormed) (source : Needle) :
    Transit (f.clearHeld source) source (f.heldAt source) where
  wellFormed := hf.clearHeld source
  nodup := hf.record.nodup source
  pending h hh := by
    rw [heldAt_clearHeld, if_pos rfl, rowLoops_congr (store_clearHeld f source)]
    exact ⟨List.not_mem_nil, hf.occupied source h hh⟩

/-! ## What is read through the record and the paths -/

namespace WellFormed

/-- A lane has a tail exactly when it has a path. -/
theorem tail?_eq_none_iff {f : Fabric α} (hf : f.WellFormed) (c : Nat) :
    f.tail? c = none ↔ f.store.path? c = none := by
  cases hp : f.store.path? c with
  | none => simp [tail?, hp]
  | some p =>
    obtain ⟨place, hlast, hloops⟩ := (hf.paths c p hp).last
    have hnewest := List.getLast?_eq_some_getLast hloops
    obtain ⟨row, -, hbelongs⟩ := (hf.paths c p hp).rows.belongsTo (List.getLast_mem hloops)
    have hpoints : ((p.loopsOn place.row place.needle).getLast hloops).points ≠ [] := by
      rw [← List.length_pos_iff, hbelongs.points]
      decide
    have hloop : p.lastLoop? = some ((p.loopsOn place.row place.needle).getLast hloops) := by
      rw [YarnPath.lastLoop?_eq, hlast, Option.bind_some, hnewest]
    simp [tail?, hp, hlast, hloop, List.getLast?_eq_some_getLast hpoints]

/-- A lane without a tail has no last loop. -/
theorem last_eq_none {f : Fabric α} (hf : f.WellFormed) {c : Nat} (h : f.tail? c = none) :
    (f.store.path c).last = none := by
  rw [YarnStore.path, (hf.tail?_eq_none_iff c).1 h]
  rfl

end WellFormed

variable [Scalar α]

/-- A needle has a height exactly when it lists a row. -/
theorem WellFormed.baseHeight?_eq_none_iff {f : Fabric α} (hf : f.WellFormed) (n : Needle) :
    f.baseHeight? n = none ↔ f.heldAt n = [] := by
  unfold baseHeight?
  rw [Option.map_eq_none_iff]
  constructor
  · intro hnone
    by_contra hheld
    obtain ⟨h, hh⟩ := List.exists_mem_of_ne_nil _ hheld
    -- A listed row has a loop, and a loop has all of its points, the top of its head among them.
    obtain ⟨l, hl⟩ := List.exists_mem_of_ne_nil _ (hf.occupied n h hh)
    obtain ⟨row, -, hbelongs⟩ :=
      (hf.rows h.lane).belongsTo (i := h.row) (n := n) (l := l) (by rwa [← rowLoops_eq])
    have htop : headTop < l.points.length := by rw [hbelongs.points]; decide
    have hy : (l.points[headTop]).y ∈
        (f.loopsAt n).filterMap fun l => (l.points[headTop]?).map (·.y) := by
      refine List.mem_filterMap.2 ⟨l, List.mem_flatMap.2 ⟨h, hh, hl⟩, ?_⟩
      rw [List.getElem?_eq_getElem htop, Option.map_some]
    cases hys : (f.loopsAt n).filterMap fun l => (l.points[headTop]?).map (·.y) with
    | nil => simp [hys] at hy
    | cons y ys => simp [hys, Scalar.greatest?] at hnone
  · intro hheld
    simp [loopsAt, hheld, Scalar.greatest?]

/-! ## Stitches -/

theorem length_outline (g : Geometry α) (spec : StitchSpec α) (head : Option α) :
    (outline g spec head).length = loopPoints := by
  cases head with
  | none => exact g.length_stitchBox spec
  | some height => simp [outline, g.length_stitchBox]

theorem belongsTo_stitchLoop (f : Fabric α) (lane : Lane) (direction : Direction) (n : Needle)
    (height : α) (head : Option α) :
    (f.stitchLoop lane direction n height head).BelongsTo lane.index direction :=
  ⟨rfl, rfl, length_outline ..⟩

/-- The row that a stitch belongs to is as it was when the yarn has been led to the stitch: new, or
else of the stitch's direction and, for a knit, with nothing at its needle. -/
theorem stitchRow_eq_length_or (f : Fabric α) (lane : Lane) (direction : Direction) (n : Needle)
    (height : α) (knit : Bool) :
    let i := (f.stitchRow lane direction n knit).row
    i = (f.leadPath lane direction n height).rows.length ∨
      ∃ row, (f.leadPath lane direction n height).rows[i]? = some row ∧
        row.direction = direction ∧ (knit = true → row.holds n = false) := by
  dsimp only
  rw [length_leadPath]
  refine (YarnPath.nextRow_eq_length_or ..).imp_right fun ⟨row, hrow, hdirection, hholds⟩ => ?_
  refine ⟨_, (YarnPath.getElem?_modifyLastLoop ..).trans (congrArg (Option.map _) hrow), ?_⟩
  -- Leading the last loop leaves the needles of its row, and its direction, as they are.
  cases (f.store.path lane.index).last with
  | none => exact ⟨hdirection, hholds⟩
  | some place =>
    dsimp only
    split
    · next hat =>
      refine ⟨hdirection, ?_⟩
      intro hknit
      have hne : n ≠ place.needle := by
        rintro rfl
        simp [hholds hknit] at hat
      rw [Row.holds, Row.slot?_setSlot, if_neg hne]
      exact hholds hknit
    · exact ⟨hdirection, hholds⟩

/-- Leading the last loop of a lane to a stitch takes no loop from any needle. -/
theorem length_loopsOn_leadPath (f : Fabric α) (lane : Lane) (direction : Direction) (n : Needle)
    (height : α) (i : Nat) (m : Needle) :
    ((f.leadPath lane direction n height).loopsOn i m).length =
      ((f.store.path lane.index).loopsOn i m).length := by
  rw [leadPath, YarnPath.loopsOn_modifyLastLoop]
  split
  · exact List.length_modify ..
  · rfl

/-- A row listed after a stitch is the row of the stitch, at its needle, or was listed before. -/
theorem mem_heldAt_place {f : Fabric α} {direction : Direction} {n m : Needle} {lane : Lane}
    {height : α} {head : Option α} {knit : Bool} {h : Held}
    (hh : h ∈ (f.place direction n lane height head knit).1.heldAt m) :
    h = f.stitchRow lane direction n knit ∧ m = n ∨ h ∈ f.heldAt m := by
  rw [heldAt_place] at hh
  split at hh
  · next hm =>
    subst hm
    cases knit
    · simp only [Bool.false_eq_true, if_false] at hh
      split at hh
      · exact .inr hh
      · rcases List.mem_append.1 hh with hh | hh
        · exact .inr hh
        · exact .inl ⟨List.mem_singleton.1 hh, rfl⟩
    · exact .inl ⟨List.mem_singleton.1 hh, rfl⟩
  · exact .inr hh

theorem WellFormed.place {f : Fabric α} (hf : f.WellFormed) (direction : Direction) (n : Needle)
    (lane : Lane) (height : α) (head : Option α) (knit : Bool) :
    (f.place direction n lane height head knit).1.WellFormed := by
  have htail := hf.last_eq_none (c := lane.index)
  have hlead : (f.leadPath lane direction n height).RowsWellFormed lane.index :=
    (hf.rows lane.index).modifyLastLoop fun l d hl => hl.endAt _ _
  refine ⟨?_, ?_, ?_⟩
  · rw [held_place]
    cases knit
    · exact hf.record.addHeld n _
    · exact hf.record.put n (by simp) (List.nodup_singleton _)
  · intro m h hh
    rw [rowLoops_place htail]
    split
    · simp
    · next hplace =>
      -- Any other place was listed before, and no needle loses a loop.
      have hold := hf.occupied m h ((mem_heldAt_place hh).resolve_left hplace)
      split
      · next hlane =>
        rw [rowLoops_eq, hlane, ← List.length_pos_iff] at hold
        rwa [← List.length_pos_iff, length_loopsOn_leadPath]
      · exact hold
  · intro c p hp
    rw [path?_place htail] at hp
    split at hp
    · next hc =>
      subst hc
      obtain rfl := Option.some.inj hp
      refine hlead.addLoop ?_ n knit (f.belongsTo_stitchLoop lane direction n height head)
      exact (f.stitchRow_eq_length_or lane direction n height knit).imp_right
        fun ⟨row, hrow, hdirection, _⟩ => ⟨row, hrow, hdirection⟩
    · exact hf.paths c p hp

/-! ## Transfers -/

theorem WellFormed.moveRow {f : Fabric α} (hf : f.WellFormed) {source : Needle} {h : Held}
    (hpending : h ∉ f.heldAt source ∧ f.rowLoops h source ≠ []) (target : Needle)
    (laneCount : Nat) (height : α) :
    (f.moveRow source target laneCount height h).1.WellFormed := by
  obtain ⟨habsent, hne⟩ := hpending
  have hmoved : f.movedLoops source target laneCount height h ≠ [] := by
    rw [movedLoops, Ne, List.map_eq_nil_iff]
    exact hne
  refine ⟨?_, ?_, ?_⟩
  · rw [held_moveRow hne]
    exact hf.record.addHeld target h
  · intro m k hk
    rw [rowLoops_moveRow hne]
    rw [heldAt_moveRow hne] at hk
    split
    · exact List.append_ne_nil_of_right_ne_nil _ hmoved
    · next htarget =>
      -- The source does not list the row that leaves it any more.
      have hold : k ∈ f.heldAt m := by
        split at hk
        · next hm =>
          subst hm
          split at hk
          · exact hk
          · exact (List.mem_append.1 hk).resolve_right fun hk =>
              htarget ⟨List.mem_singleton.1 hk, rfl⟩
        · exact hk
      split
      · next hsource => exact absurd (hsource.1 ▸ hsource.2 ▸ hold) habsent
      · exact hf.occupied m k hold
  · intro c p hp
    obtain ⟨direction, hpath⟩ := path?_moveRow hne target laneCount height
    rw [hpath] at hp
    split at hp
    · next hc =>
      subst hc
      obtain rfl := Option.some.inj hp
      obtain ⟨row, hrow, hloops⟩ := exists_row_of_rowLoops hne
      have hwf : (f.store.path h.lane).WellFormed h.lane := by
        unfold YarnStore.path at hrow ⊢
        cases hq : f.store.path? h.lane with
        | none => simp [hq, YarnPath.empty] at hrow
        | some q => exact hf.paths h.lane q hq
      refine hwf.move hrow source target direction hmoved ?_
      intro l hl
      obtain ⟨l', hl', rfl⟩ := List.mem_map.1 hl
      have hbelongs := (hwf.rows h.row row hrow).belongsTo (hloops ▸ hl')
      split
      · exact hbelongs
      · exact hbelongs.withHead _
    · exact hf.paths c p hp

/-- A move keeps the fabric well-formed and the other rows pending. -/
theorem Transit.moveRow {f : Fabric α} {source : Needle} {h : Held} {rows : List Held}
    (hf : Transit f source (h :: rows)) (target : Needle) (laneCount : Nat) (height : α) :
    Transit (f.moveRow source target laneCount height h).1 source rows := by
  have hpending := hf.pending h List.mem_cons_self
  refine ⟨hf.wellFormed.moveRow hpending target laneCount height, hf.nodup.of_cons, ?_⟩
  intro k hk
  have hne : k ≠ h := fun heq => (List.nodup_cons.1 hf.nodup).1 (heq ▸ hk)
  obtain ⟨habsent, hloops⟩ := hf.pending k (List.mem_cons_of_mem _ hk)
  rw [rowLoops_moveRow hpending.2, if_neg fun h => hne h.1, if_neg fun h => hne h.1,
    heldAt_moveRow hpending.2]
  refine ⟨?_, hloops⟩
  split
  · next hsource =>
    subst hsource
    split
    · exact habsent
    · simp [habsent, hne]
  · exact habsent

theorem Transit.moveRows {f : Fabric α} {source : Needle} {rows : List Held}
    (hf : Transit f source rows) (target : Needle) (laneCount : Nat) (height : α) :
    (f.moveRows source target laneCount height rows).WellFormed := by
  induction rows generalizing f with
  | nil => exact hf.wellFormed
  | cons h rows ih => exact ih (hf.moveRow target laneCount height)

/-! ## Runs -/

/-- Every call keeps the fabric well-formed. -/
theorem WellFormed.apply {f : Fabric α} (hf : f.WellFormed) (op : Operation) :
    (f.apply op).WellFormed := by
  cases op with
  | stitch knit direction n lane =>
    rw [apply_stitch]
    exact hf.place direction n lane _ _ knit
  | transfer source target laneCount =>
    rcases f.apply_transfer source target laneCount with ⟨-, h⟩ | ⟨height, h⟩
    · rwa [h]
    · rw [h]
      exact (transit_clearHeld hf source).moveRows target laneCount height
  | drop n =>
    rcases f.apply_drop n with ⟨-, h⟩ | h
    · rwa [h]
    · rw [h]
      exact hf.clearHeld n

/-- The fabric is well-formed after every run. -/
theorem wellFormed_run (g : Geometry α) (ops : List Operation) : (run g ops).WellFormed := by
  induction ops using List.reverseRecOn with
  | nil => exact wellFormed_empty g
  | append_singleton ops op ih =>
    rw [run_concat]
    exact ih.apply op

/-! ## Which lanes have a path -/

theorem Transit.path?_moveRows_eq_none_iff {f : Fabric α} {source : Needle} {rows : List Held}
    (hf : Transit f source rows) (target : Needle) (laneCount : Nat) (height : α) (c : Nat) :
    (f.moveRows source target laneCount height rows).store.path? c = none ↔
      f.store.path? c = none := by
  induction rows generalizing f with
  | nil => rfl
  | cons h rows ih =>
    refine (ih (hf.moveRow target laneCount height)).trans ?_
    have hne := (hf.pending h List.mem_cons_self).2
    obtain ⟨direction, hpath⟩ := path?_moveRow hne target laneCount height
    rw [hpath]
    split
    · next hc =>
      subst hc
      have hsome : f.store.path? h.lane ≠ none := by
        intro hnone
        rw [rowLoops_eq, YarnStore.path, hnone] at hne
        exact hne rfl
      simp [hsome]
    · rfl

/-- A call starts the path of the lane that it stitches with and no other. -/
theorem WellFormed.path?_apply_eq_none_iff {f : Fabric α} (hf : f.WellFormed) (op : Operation)
    (c : Nat) :
    (f.apply op).store.path? c = none ↔ f.store.path? c = none ∧ op.lane? ≠ some c := by
  cases op with
  | stitch knit direction n lane =>
    rw [apply_stitch, path?_place hf.last_eq_none]
    by_cases hc : c = lane.index
    · simp [hc, Operation.lane?]
    · simp [hc, Operation.lane?, Ne.symm hc]
  | transfer source target laneCount =>
    simp only [Operation.lane?, ne_eq, reduceCtorEq, not_false_eq_true, and_true]
    rcases f.apply_transfer source target laneCount with ⟨-, h⟩ | ⟨height, h⟩
    · rw [h]
    · rw [h, (transit_clearHeld hf source).path?_moveRows_eq_none_iff, store_clearHeld]
  | drop n =>
    simp only [Operation.lane?, ne_eq, reduceCtorEq, not_false_eq_true, and_true]
    rcases f.apply_drop n with ⟨-, h⟩ | h <;> rw [h]
    rw [store_clearHeld]

/-- The lanes with a path are those that a run stitched with. -/
theorem path?_run_eq_none_iff (g : Geometry α) (ops : List Operation) (c : Nat) :
    (run g ops).store.path? c = none ↔ ∀ op ∈ ops, op.lane? ≠ some c := by
  induction ops using List.reverseRecOn with
  | nil => simp [empty, YarnStore.empty, YarnStore.path?]
  | append_singleton ops op ih =>
    rw [run_concat, (wellFormed_run g ops).path?_apply_eq_none_iff, ih]
    simp only [List.mem_append, List.mem_singleton, or_imp, forall_and, forall_eq]

/-- After every run the record, the rows and the last loops agree. So a needle has a height exactly
when it lists a row, and a lane has a tail to lead to a stitch exactly when it was stitched with
before. -/
theorem run_representation (g : Geometry α) (ops : List Operation) :
    (run g ops).WellFormed ∧
      (∀ n, (run g ops).baseHeight? n = none ↔ (run g ops).heldAt n = []) ∧
      ∀ c, (run g ops).tail? c = none ↔ ∀ op ∈ ops, op.lane? ≠ some c := by
  have hf := wellFormed_run g ops
  refine ⟨hf, hf.baseHeight?_eq_none_iff, ?_⟩
  intro c
  rw [hf.tail?_eq_none_iff, path?_run_eq_none_iff]

end Knitting.Fabric
