import Knitting.Proofs.Fabric.Holding
import Knitting.Proofs.Yarn.Slots

set_option autoImplicit false

/-! # No loop is lost

A knit overwrites the slot of its needle, and a transfer takes a slot out of a row and puts it in
elsewhere. Even so no loop is ever lost or made twice. The store has exactly the loops that were
made, one for each stitch (`Fabric.loopCount_run`), and a loop stays in the row that it was made in,
beside the loops that it shares a slot with and in their order (`Fabric.keeps_ledger`). Only a
transfer moves it, and only from the needle that it empties to the one that it fills
(`Fabric.slot_record`). -/

namespace Knitting

variable {α : Type}

/-! ## Ledgers that keep what others have -/

namespace Ledger

/-- A later ledger has every loop of an earlier one, in the row where that has it and together with
the loops beside it, in their order. -/
structure Keeps (b b' : Ledger α) : Prop where
  made : ∀ (i : Nat) (l : Loop α), b.made[i]? = some l →
    ∃ l', b'.made[i]? = some l' ∧ l'.carrier = l.carrier ∧ l'.direction = l.direction
  slots : ∀ h n, ∃ n', b.slot h n <:+: b'.slot h n'

theorem Keeps.refl (b : Ledger α) : b.Keeps b :=
  ⟨fun _ l hl => ⟨l, hl, rfl, rfl⟩, fun _ n => ⟨n, List.infix_rfl⟩⟩

theorem Keeps.trans {b b' b'' : Ledger α} (h : b.Keeps b') (h' : b'.Keeps b'') : b.Keeps b'' where
  made i l hl := by
    obtain ⟨l', hl', hcarrier, hdirection⟩ := h.made i l hl
    obtain ⟨l'', hl'', hcarrier', hdirection'⟩ := h'.made i l' hl'
    exact ⟨l'', hl'', hcarrier'.trans hcarrier, hdirection'.trans hdirection⟩
  slots k n := by
    obtain ⟨n', hn'⟩ := h.slots k n
    obtain ⟨n'', hn''⟩ := h'.slots k n'
    exact ⟨n'', hn'.trans hn''⟩

/-- A move takes the loops that a row has at its source to its target, in their order, and leaves
all others where they are. -/
theorem slot_move_infix (b : Ledger α) (source target : Needle) (h k : Held) (m : Needle) :
    ∃ m', b.slot k m <:+: (b.move source target h).slot k m' ∧
      (m' = m ∨ m = source ∧ m' = target) := by
  by_cases hk : k = h
  · subst hk
    by_cases hsource : m = source
    · subst hsource
      refine ⟨target, ?_, .inr ⟨rfl, rfl⟩⟩
      rw [slot_move_target]
      exact (List.suffix_append _ _).isInfix
    · refine ⟨m, ?_, .inl rfl⟩
      by_cases htarget : m = target
      · subst htarget
        rw [slot_move_target, if_neg (Ne.symm hsource)]
        exact (List.prefix_append _ _).isInfix
      · have hslot : (b.move source target k).slot k m = b.slot k m := by
          simp [move, hsource, htarget]
        exact hslot ▸ List.infix_rfl
  · refine ⟨m, ?_, .inl rfl⟩
    exact slot_move_of_ne b source target hk m ▸ List.infix_rfl

theorem slot_moves_infix (b : Ledger α) (source target : Needle) (rows : List Held) (k : Held)
    (m : Needle) :
    ∃ m', b.slot k m <:+: (rows.foldl (fun b h => b.move source target h) b).slot k m' ∧
      (m' = m ∨ m = source ∧ m' = target) := by
  induction rows generalizing b m with
  | nil => exact ⟨m, List.infix_rfl, .inl rfl⟩
  | cons h rows ih =>
    obtain ⟨m₁, hfirst, hm₁⟩ := b.slot_move_infix source target h k m
    obtain ⟨m₂, hrest, hm₂⟩ := ih (b.move source target h) m₁
    refine ⟨m₂, hfirst.trans hrest, ?_⟩
    -- What is at the target by now stays there.
    rcases hm₁ with rfl | ⟨rfl, rfl⟩
    · exact hm₂
    · rcases hm₂ with rfl | ⟨-, rfl⟩
      · exact .inr ⟨rfl, rfl⟩
      · exact .inr ⟨rfl, rfl⟩

/-- A stitch adds its loop behind those that its row has at its needle. -/
theorem slot_stitch_prefix (b : Ledger α) (tail : Option Nat) (seam : α × α) (row k : Held)
    (n m : Needle) (l : Loop α) : b.slot k m <+: (b.stitch tail seam row n l).slot k m := by
  simp only [stitch]
  split
  · exact List.prefix_append _ _
  · exact List.prefix_rfl

theorem getElem?_made_stitch_of_some {b : Ledger α} {i : Nat} {l : Loop α}
    (hl : b.made[i]? = some l) (tail : Option Nat) (seam : α × α) (row : Held) (n : Needle)
    (new : Loop α) :
    ∃ l', (b.stitch tail seam row n new).made[i]? = some l' ∧ l'.carrier = l.carrier ∧
      l'.direction = l.direction := by
  have hlt : i < (b.led tail seam).length := by
    rw [length_led]
    exact (List.getElem?_eq_some_iff.1 hl).1
  simp only [stitch, List.getElem?_append_left hlt, getElem?_led, hl, Option.map_some]
  refine ⟨_, rfl, ?_⟩
  split
  · unfold Loop.endAt
    dsimp only
    split <;> exact ⟨rfl, rfl⟩
  · exact ⟨rfl, rfl⟩

end Ledger

namespace Fabric

/-! ## The loops of the store -/

theorem rowLoops_of_mem_slots {f : Fabric α} {lane i : Nat} {n : Needle} {loops : List (Loop α)}
    (h : ((lane, i, n), loops) ∈ f.store.slots) : f.rowLoops ⟨lane, i⟩ n = loops := by
  rw [rowLoops, YarnStore.mem_slots_iff.1 h, Option.getD_some]

theorem exists_mem_slots {f : Fabric α} {h : Held} {n : Needle} (hne : f.rowLoops h n ≠ []) :
    ∃ loops, ((h.lane, h.row, n), loops) ∈ f.store.slots := by
  simp only [YarnStore.mem_slots_iff, ← Option.ne_none_iff_exists']
  intro hnone
  exact hne (by rw [rowLoops, hnone, Option.getD_none])

/-- The numbers of the loops in the slots of the store. -/
def storeNumbers (f : Fabric α) (b : Ledger α) : List Nat :=
  f.store.slots.flatMap fun e => b.slot ⟨e.1.1, e.1.2.1⟩ e.1.2.2

namespace Tracks

variable {f : Fabric α} {b : Ledger α}

theorem nodup_storeNumbers (hb : f.Tracks b) : (f.storeNumbers b).Nodup := by
  rw [storeNumbers, List.nodup_flatMap]
  constructor
  · intro e _
    exact hb.nodup _ _
  · refine (List.pairwise_map.1 f.store.nodup_places).imp ?_
    intro e e' hne i hi hi'
    obtain ⟨hheld, hneedle⟩ := hb.apart i _ _ _ _ hi hi'
    obtain ⟨hlane, hrow⟩ := Held.ext_iff.1 hheld
    exact hne (Prod.ext hlane (Prod.ext hrow hneedle))

theorem mem_storeNumbers_iff (hb : f.Tracks b) {i : Nat} :
    i ∈ f.storeNumbers b ↔ i < b.made.length := by
  rw [storeNumbers, List.mem_flatMap]
  constructor
  · rintro ⟨e, -, hi⟩
    exact hb.lt_length hi
  · intro hi
    obtain ⟨h, n, hmem⟩ := hb.complete i hi
    have hne : f.rowLoops h n ≠ [] := by
      rw [Ne, ← hb.slot_eq_nil_iff]
      exact List.ne_nil_of_mem hmem
    obtain ⟨loops, hloops⟩ := exists_mem_slots hne
    exact ⟨_, hloops, hmem⟩

/-- The store has each loop that was made exactly once. -/
theorem loopCount_eq (hb : f.Tracks b) : f.store.loopCount = b.made.length := by
  have hperm : (f.storeNumbers b).Perm (List.range b.made.length) := by
    refine (List.perm_ext_iff_of_nodup hb.nodup_storeNumbers List.nodup_range).2 ?_
    intro i
    rw [hb.mem_storeNumbers_iff, List.mem_range]
  calc f.store.loopCount
      = (f.store.slots.map fun e => e.2.length).sum := f.store.loopCount_eq_sum
    _ = (f.store.slots.map fun e => (b.slot ⟨e.1.1, e.1.2.1⟩ e.1.2.2).length).sum := by
      refine congrArg List.sum (List.map_congr_left ?_)
      rintro ⟨⟨lane, i, n⟩, loops⟩ hmem
      rw [(hb.loops _ _).length_eq, rowLoops_of_mem_slots hmem]
    _ = (f.storeNumbers b).length := by rw [storeNumbers, List.length_flatMap]
    _ = b.made.length := by rw [hperm.length_eq, List.length_range]

end Tracks

variable [Scalar α]

/-! ## One call -/

/-- A stitch makes one loop, and no other call makes any. -/
theorem length_made_record_eq (f : Fabric α) (b : Ledger α) (op : Operation) :
    (f.record b op).made.length = b.made.length + if op.lane?.isSome then 1 else 0 := by
  rw [length_made_record]
  cases op <;> rfl

/-- A call keeps the loops of each slot together and in order, and at their needle if it does not
transfer them. -/
theorem slot_record (f : Fabric α) (b : Ledger α) (op : Operation) (h : Held) (n : Needle) :
    ∃ n', b.slot h n <:+: (f.record b op).slot h n' ∧
      (n' = n ∨ ∃ laneCount, op = .transfer n n' laneCount) := by
  cases op with
  | stitch knit direction m lane =>
    exact ⟨n, (b.slot_stitch_prefix _ _ _ h _ n _).isInfix, .inl rfl⟩
  | transfer source target laneCount =>
    obtain ⟨n', hslot, hn'⟩ := b.slot_moves_infix source target (f.heldAt source) h n
    refine ⟨n', hslot, hn'.imp_right ?_⟩
    rintro ⟨rfl, rfl⟩
    exact ⟨laneCount, rfl⟩
  | drop m => exact ⟨n, List.infix_rfl, .inl rfl⟩

theorem keeps_record (f : Fabric α) (b : Ledger α) (op : Operation) : b.Keeps (f.record b op) where
  made i l hl := by
    cases op with
    | stitch knit direction n lane => exact Ledger.getElem?_made_stitch_of_some hl _ _ _ _ _
    | transfer source target laneCount =>
      rw [made_record rfl]
      exact ⟨l, hl, rfl, rfl⟩
    | drop n => exact ⟨l, hl, rfl, rfl⟩
  slots h n := by
    obtain ⟨n', hslot, -⟩ := f.slot_record b op h n
    exact ⟨n', hslot⟩

/-- What a knit replaces in its row is nothing, also once the last loop of its lane has been led to
it. -/
theorem WellFormed.rowLoops_reach_knit {f : Fabric α} (hf : f.WellFormed) (lane : Lane)
    (direction : Direction) (n : Needle) (height : α) :
    (f.reach lane direction n height).1.rowLoops (f.stitchRow lane direction n true) n = [] := by
  have hempty := f.rowLoops_stitchRow_knit lane direction n
  rw [rowLoops_eq, ← List.length_eq_zero_iff] at hempty ⊢
  rw [show (f.stitchRow lane direction n true).lane = lane.index from rfl,
    path_reach hf.last_eq_none, length_loopsOn_leadPath]
  exact hempty

/-! ## A run -/

/-- After a run the store has one loop for each knit and each tuck. -/
theorem loopCount_run (g : Geometry α) (ops : List Operation) :
    (run g ops).store.loopCount = ops.countP (·.lane?.isSome) := by
  rw [(tracks_ledger g ops).loopCount_eq]
  induction ops using List.reverseRecOn with
  | nil => rfl
  | append_singleton ops op ih =>
    rw [ledger_concat, length_made_record_eq, ih, List.countP_append, List.countP_singleton]

/-- A run keeps the loops of the runs that it continues. -/
theorem keeps_ledger (g : Geometry α) (ops more : List Operation) :
    (ledger g ops).Keeps (ledger g (ops ++ more)) := by
  induction more using List.reverseRecOn with
  | nil =>
    rw [List.append_nil]
    exact .refl _
  | append_singleton more op ih =>
    rw [← List.append_assoc, ledger_concat]
    exact ih.trans (keeps_record ..)

end Fabric

end Knitting
