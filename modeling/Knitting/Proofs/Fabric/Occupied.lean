import Knitting.Proofs.Fabric.WellFormed

set_option autoImplicit false

/-! # Which needles are occupied

Calls depend on one another in few things. Which needles list a row after a call depends on which
did before it and on the needles of the call, but on no lane and on no size
(`Fabric.SameNeedles.apply`). -/

namespace Knitting

/-- A call without the lanes that it is made with. -/
def Operation.unlaned : Operation → Operation
  | .stitch knit direction n _ => .stitch knit direction n ⟨0, 0⟩
  | .transfer source target _ => .transfer source target 0
  | .drop n => .drop n

/-- The needles that are free after a call, from those that were before. -/
def Operation.freed (free : Needle → Prop) : Operation → Needle → Prop
  | .stitch _ _ n _, m => m ≠ n ∧ free m
  | .transfer source target _, m =>
    (free source ∧ free m) ∨ (¬free source ∧ m ≠ target ∧ (m = source ∨ free m))
  | .drop n, m => m = n ∨ free m

theorem Operation.freed_unlaned (free : Needle → Prop) (op : Operation) :
    op.unlaned.freed free = op.freed free := by
  cases op <;> rfl

namespace Fabric

variable {α : Type}

/-- No row is listed at a needle. -/
def IsFree (f : Fabric α) (n : Needle) : Prop := f.heldAt n = []

/-- Two fabrics occupy the same needles. -/
def SameNeedles (f f' : Fabric α) : Prop := ∀ n, f.IsFree n ↔ f'.IsFree n

theorem SameNeedles.refl (f : Fabric α) : f.SameNeedles f := fun _ => Iff.rfl

theorem isFree_clearHeld (f : Fabric α) (n m : Needle) :
    (f.clearHeld n).IsFree m ↔ m = n ∨ f.IsFree m := by
  unfold IsFree
  rw [heldAt_clearHeld]
  by_cases hm : m = n
  · simp [hm]
  · simp [hm]

/-- A drop is refused just if its needle is free. -/
theorem drop_warns_iff (f : Fabric α) (n : Needle) {w : Warning} :
    f.drop n = .error w ↔ f.IsFree n ∧ w = .emptyDrop n := by
  rw [IsFree, drop]
  cases f.heldAt n <;> simp [eq_comm]

/-- Taking the rows away from a free needle changes nothing. -/
theorem WellFormed.clearHeld_eq_self {f : Fabric α} (hf : f.WellFormed) {n : Needle}
    (hfree : f.IsFree n) : f.clearHeld n = f := by
  have hat : f.held.at? n = none := by
    cases hrows : f.held.at? n with
    | none => rfl
    | some rows =>
      have hnil : rows = [] := by simpa [IsFree, heldAt, hrows] using hfree
      exact absurd hnil (hf.record.listed n rows hrows).1
  have hheld : f.held.remove n = f.held := by
    refine NeedleTable.ext_at? (NeedleTable.pruned_remove hf.record.pruned n) hf.record.pruned ?_
    intro m
    rw [NeedleTable.at?_remove]
    split
    · next hm => rw [hm, hat]
    · rfl
  rw [Fabric.clearHeld, hheld]

variable [Scalar α]

theorem isFree_moveRow {f : Fabric α} {source : Needle} {h : Held}
    (hne : f.rowLoops h source ≠ []) (target m : Needle) (laneCount : Nat) (height : α) :
    (f.moveRow source target laneCount height h).1.IsFree m ↔ m ≠ target ∧ f.IsFree m := by
  unfold IsFree
  rw [heldAt_moveRow hne]
  by_cases hm : m = target
  · subst hm
    simp only [if_true, ne_eq, not_true_eq_false, false_and, iff_false]
    split
    · next hmem => exact List.ne_nil_of_mem hmem
    · simp
  · simp [hm]

theorem isFree_place (f : Fabric α) (direction : Direction) (n m : Needle) (lane : Lane)
    (height : α) (head : Option α) (knit : Bool) :
    (f.place direction n lane height head knit).1.IsFree m ↔ m ≠ n ∧ f.IsFree m := by
  unfold IsFree
  rw [heldAt_place]
  by_cases hm : m = n
  · subst hm
    simp only [if_true, ne_eq, not_true_eq_false, false_and, iff_false]
    split
    · simp
    · split
      · next hmem => exact List.ne_nil_of_mem hmem
      · simp
  · simp [hm]

theorem Transit.isFree_moveRows {f : Fabric α} {source : Needle} {rows : List Held}
    (hf : f.Transit source rows) (target m : Needle) (laneCount : Nat) (height : α) :
    (f.moveRows source target laneCount height rows).IsFree m ↔
      (m = target → rows = []) ∧ f.IsFree m := by
  induction rows generalizing f with
  | nil =>
    simp only [implies_true, true_and]
    rfl
  | cons h rows ih =>
    have hne := (hf.pending h List.mem_cons_self).2
    refine (ih (hf.moveRow target laneCount height)).trans ?_
    rw [isFree_moveRow hne]
    by_cases hm : m = target
    · simp [hm]
    · simp [hm]

/-- A call frees and occupies needles by what was occupied before. -/
theorem WellFormed.isFree_apply {f : Fabric α} (hf : f.WellFormed) (op : Operation) (m : Needle) :
    (f.apply op).IsFree m ↔ op.freed f.IsFree m := by
  cases op with
  | stitch knit direction n lane =>
    rw [apply_stitch]
    exact isFree_place ..
  | transfer source target laneCount =>
    unfold Operation.freed
    rcases f.apply_transfer source target laneCount with ⟨hnone, h⟩ | ⟨height, h⟩
    · have hsource : f.IsFree source := (hf.baseHeight?_eq_none_iff source).1 hnone
      rw [h]
      simp [hsource]
    · rw [h, (transit_clearHeld hf source).isFree_moveRows, isFree_clearHeld]
      -- A fold over no rows would move nothing, but such a transfer is refused.
      by_cases hsource : f.IsFree source
      · have hrows : f.heldAt source = [] := hsource
        simp only [hrows, implies_true, true_and, hsource, not_true_eq_false, false_and, or_false]
        refine ⟨?_, .inr⟩
        rintro (rfl | hm)
        · exact hsource
        · exact hm
      · have hrows : f.heldAt source ≠ [] := hsource
        simp only [hrows, imp_false, hsource, false_and, false_or, not_false_eq_true, true_and,
          ne_eq]
  | drop n =>
    unfold Operation.freed
    rcases f.apply_drop n with ⟨hfree, h⟩ | h
    · rw [h]
      refine ⟨.inr, ?_⟩
      rintro (rfl | hm)
      · exact hfree
      · exact hm
    · rw [h, isFree_clearHeld]

/-- Two calls that differ in their lanes only keep the occupied needles the same. -/
theorem SameNeedles.apply {f f' : Fabric α} (hsame : f.SameNeedles f') (hf : f.WellFormed)
    (hf' : f'.WellFormed) {op op' : Operation} (hop : op.unlaned = op'.unlaned) :
    (f.apply op).SameNeedles (f'.apply op') := by
  have hfree : f.IsFree = f'.IsFree := funext fun n => propext (hsame n)
  intro m
  rw [hf.isFree_apply, hf'.isFree_apply, ← op.freed_unlaned, ← op'.freed_unlaned, hop, hfree]

theorem WellFormed.foldl_apply {f : Fabric α} (hf : f.WellFormed) (ops : List Operation) :
    (ops.foldl Fabric.apply f).WellFormed :=
  List.foldlRecOn ops Fabric.apply hf fun _ hg op _ => hg.apply op

theorem SameNeedles.foldl_apply {f f' : Fabric α} (hsame : f.SameNeedles f') (hf : f.WellFormed)
    (hf' : f'.WellFormed) {ops ops' : List Operation}
    (hops : ops.map Operation.unlaned = ops'.map Operation.unlaned) :
    (ops.foldl Fabric.apply f).SameNeedles (ops'.foldl Fabric.apply f') := by
  induction ops generalizing f f' ops' with
  | nil =>
    obtain rfl : ops' = [] := by simpa using hops
    exact hsame
  | cons op ops ih =>
    cases ops' with
    | nil => simp at hops
    | cons op' ops' =>
      obtain ⟨hop, hops⟩ := List.cons.inj hops
      exact ih (hsame.apply hf hf' hop) (hf.apply op) (hf'.apply op') hops

/-- A transfer is refused just if its source is free. -/
theorem WellFormed.transfer_warns_iff {f : Fabric α} (hf : f.WellFormed) (source target : Needle)
    (laneCount : Nat) {w : Warning} :
    f.transfer source target laneCount = .error w ↔
      f.IsFree source ∧ w = .emptyTransfer source := by
  rw [IsFree, ← hf.baseHeight?_eq_none_iff, transfer]
  cases f.baseHeight? source <;> simp [eq_comm]

end Fabric

end Knitting
