import Knitting.Proofs.Fabric.Ledger
import Mathlib.Data.List.Perm.Subperm

set_option autoImplicit false

/-! # What a needle holds

The needles of a machine are a simple thing: a knit leaves only its new loop on its needle, a tuck
adds one, a transfer moves all loops of a needle onto another, and a drop leaves a needle empty
(`Bench.step`). The fabric reads off what a needle holds in two steps, through the rows listed at
the needle and the loops that these have there, and a row keeps loops that have been dropped or
knitted through. So the two agree just as long as no row is listed anew at a needle where loops of
it were left behind (`Fabric.Revives`); from then on the needle holds these, too. -/

namespace Knitting

variable {α : Type}

/-! ## The needles -/

/-- The loops on the needles, numbered in the order in which they are made. -/
structure Bench where
  made : Nat
  on : Needle → List Nat

namespace Bench

/-- No loop at all. -/
def empty : Bench := ⟨0, fun _ => []⟩

/-- What a call does to the needles. -/
def step (b : Bench) : Operation → Bench
  | .stitch knit _ n _ =>
    ⟨b.made + 1, fun m => if m = n then (if knit then [] else b.on n) ++ [b.made] else b.on m⟩
  | .transfer source target _ =>
    { b with
      on := fun m =>
        if source = target then b.on m
        else if m = target then b.on target ++ b.on source
        else if m = source then []
        else b.on m }
  | .drop n => { b with on := fun m => if m = n then [] else b.on m }

/-- The needles after a run. -/
def run (ops : List Operation) : Bench := ops.foldl step empty

@[simp] theorem run_concat (ops : List Operation) (op : Operation) :
    run (ops ++ [op]) = (run ops).step op := by
  simp [run]

/-- Every loop on a needle is also on that needle of another machine. -/
structure Within (b b' : Bench) : Prop where
  made : b.made = b'.made
  on : ∀ n, (b.on n).Subperm (b'.on n)

/-- A call keeps the loops of a machine within those of another. -/
theorem Within.step {b b' : Bench} (h : b.Within b') (op : Operation) :
    (b.step op).Within (b'.step op) := by
  cases op with
  | stitch knit direction n lane =>
    refine ⟨congrArg (· + 1) h.made, ?_⟩
    intro m
    simp only [Bench.step, h.made]
    split
    · refine List.Subperm.append ?_ (.refl _)
      split
      · exact .refl _
      · exact h.on n
    · exact h.on m
  | transfer source target laneCount =>
    refine ⟨h.made, ?_⟩
    intro m
    simp only [Bench.step]
    split
    · exact h.on m
    · split
      · exact (h.on target).append (h.on source)
      · split
        · exact .refl _
        · exact h.on m
  | drop n =>
    refine ⟨h.made, ?_⟩
    intro m
    simp only [Bench.step]
    split
    · exact .refl _
    · exact h.on m

/-- Every loop on a needle was made, and no loop is on two needles or twice on one. -/
structure Sound (b : Bench) : Prop where
  made : ∀ n, ∀ i ∈ b.on n, i < b.made
  nodup : ∀ n, (b.on n).Nodup
  apart : ∀ i n m, i ∈ b.on n → i ∈ b.on m → n = m

/-- Where a call leaves what was on a needle, if it leaves it anywhere. -/
def carried : Operation → Needle → Needle
  | .transfer source target _, m => if m = source then target else m
  | _, m => m

/-- What is on a needle after a call was carried there or is the new loop. -/
theorem mem_step {b : Bench} {op : Operation} {m : Needle} {i : Nat} (hi : i ∈ (b.step op).on m) :
    (∃ m₀, i ∈ b.on m₀ ∧ m = carried op m₀) ∨
      ∃ knit direction lane, op = .stitch knit direction m lane ∧ i = b.made := by
  cases op with
  | stitch knit direction n lane =>
    simp only [step] at hi
    split at hi
    · next hm =>
      subst hm
      rcases List.mem_append.1 hi with hi | hi
      · cases knit
        · exact .inl ⟨m, hi, rfl⟩
        · exact absurd hi List.not_mem_nil
      · exact .inr ⟨knit, direction, lane, rfl, List.mem_singleton.1 hi⟩
    · exact .inl ⟨m, hi, rfl⟩
  | transfer source target laneCount =>
    refine .inl ?_
    simp only [step, carried] at hi ⊢
    split at hi
    · next hst =>
      subst hst
      refine ⟨m, hi, ?_⟩
      split
      · next hm => exact hm
      · rfl
    · next hst =>
      split at hi
      · next hm =>
        subst hm
        rcases List.mem_append.1 hi with hi | hi
        · exact ⟨m, hi, (if_neg (Ne.symm hst)).symm⟩
        · exact ⟨source, hi, (if_pos rfl).symm⟩
      · split at hi
        · exact absurd hi List.not_mem_nil
        · next hm => exact ⟨m, hi, (if_neg hm).symm⟩
  | drop n =>
    simp only [step] at hi
    split at hi
    · exact absurd hi List.not_mem_nil
    · exact .inl ⟨m, hi, rfl⟩

theorem Sound.nodup_step {b : Bench} (h : b.Sound) (op : Operation) (m : Needle) :
    ((b.step op).on m).Nodup := by
  cases op with
  | stitch knit direction n lane =>
    simp only [step]
    split
    · refine List.nodup_append.2 ⟨?_, List.nodup_singleton _, ?_⟩
      · split
        · exact List.nodup_nil
        · exact h.nodup n
      · intro i hi j hj
        rw [List.mem_singleton.1 hj]
        split at hi
        · exact absurd hi List.not_mem_nil
        · exact Nat.ne_of_lt (h.made n i hi)
    · exact h.nodup m
  | transfer source target laneCount =>
    simp only [step]
    split
    · exact h.nodup m
    · next hst =>
      split
      · refine List.nodup_append.2 ⟨h.nodup target, h.nodup source, ?_⟩
        intro i hi j hj hij
        exact hst (h.apart i target source hi (hij ▸ hj)).symm
      · split
        · exact List.nodup_nil
        · exact h.nodup m
  | drop n =>
    simp only [step]
    split
    · exact List.nodup_nil
    · exact h.nodup m

theorem le_made_step (b : Bench) (op : Operation) : b.made ≤ (b.step op).made := by
  cases op with
  | stitch => exact Nat.le_succ _
  | transfer => exact Nat.le_refl _
  | drop => exact Nat.le_refl _

theorem Sound.step {b : Bench} (h : b.Sound) (op : Operation) : (b.step op).Sound where
  made m i hi := by
    rcases mem_step hi with ⟨m₀, hi, -⟩ | ⟨knit, direction, lane, rfl, rfl⟩
    · exact Nat.lt_of_lt_of_le (h.made m₀ i hi) (b.le_made_step op)
    · exact Nat.lt_succ_self _
  nodup := h.nodup_step op
  apart i n m hn hm := by
    rcases mem_step hn with ⟨n₀, hn₀, rfl⟩ | ⟨knit, direction, lane, rfl, hnew⟩
    · rcases mem_step hm with ⟨m₀, hm₀, rfl⟩ | ⟨knit, direction, lane, rfl, hnew⟩
      · rw [h.apart i n₀ m₀ hn₀ hm₀]
      · exact absurd hnew (Nat.ne_of_lt (h.made n₀ i hn₀))
    · rcases mem_step hm with ⟨m₀, hm₀, -⟩ | ⟨knit', direction', lane', hop, -⟩
      · exact absurd hnew (Nat.ne_of_lt (h.made m₀ i hm₀))
      · injection hop

/-- After every run the needles have each loop at most once. -/
theorem sound_run (ops : List Operation) : (run ops).Sound := by
  induction ops using List.reverseRecOn with
  | nil => exact ⟨fun _ _ hi => absurd hi List.not_mem_nil, fun _ => List.nodup_nil,
      fun _ _ _ hi => absurd hi List.not_mem_nil⟩
  | append_singleton ops op ih =>
    rw [run_concat]
    exact ih.step op

end Bench

namespace Fabric

/-! ## What the fabric has on a needle -/

/-- The numbers of the loops on a needle. -/
def numbersAt (f : Fabric α) (b : Ledger α) (n : Needle) : List Nat :=
  (f.heldAt n).flatMap fun h => b.slot h n

/-- The loops on a needle are those of the numbers there. -/
theorem Tracks.loopsAt {f : Fabric α} {b : Ledger α} (hb : f.Tracks b) (n : Needle) :
    List.Forall₂ (Ledger.Shows b.made) (f.numbersAt b n) (f.loopsAt n) := by
  refine List.rel_flatMap (R := Eq) (List.forall₂_refl _) ?_
  rintro h - rfl
  exact hb.loops h n

/-- The needles as the fabric has them. -/
def bench (f : Fabric α) (b : Ledger α) : Bench := ⟨b.made.length, f.numbersAt b⟩

/-- A row was left behind at a needle: it is not listed there but still has loops. -/
def LeftBehind (f : Fabric α) (n : Needle) (h : Held) : Prop :=
  h ∉ f.heldAt n ∧ f.rowLoops h n ≠ []

/-- The numbers of the loops that a row left behind at a needle. -/
def leftBehind (f : Fabric α) (b : Ledger α) (n : Needle) (h : Held) : List Nat :=
  if h ∈ f.heldAt n then [] else b.slot h n

theorem Tracks.leftBehind_ne_nil_iff {f : Fabric α} {b : Ledger α} (hb : f.Tracks b) (n : Needle)
    (h : Held) : f.leftBehind b n h ≠ [] ↔ f.LeftBehind n h := by
  unfold leftBehind LeftBehind
  by_cases hh : h ∈ f.heldAt n
  · simp [hh]
  · simp only [hh, if_false, not_false_eq_true, true_and, Ne, hb.slot_eq_nil_iff]

theorem numbersAt_clearHeld (f : Fabric α) (b : Ledger α) (n m : Needle) :
    (f.clearHeld n).numbersAt b m = if m = n then [] else f.numbersAt b m := by
  unfold numbersAt
  rw [heldAt_clearHeld]
  split <;> rfl

theorem leftBehind_clearHeld (f : Fabric α) (b : Ledger α) {n m : Needle} (h : m ≠ n) :
    (f.clearHeld n).leftBehind b m = f.leftBehind b m := by
  funext k
  simp only [leftBehind, heldAt_clearHeld, if_neg h]

/-- A needle has nothing left behind of the rows that it lists. -/
theorem flatMap_leftBehind_self (f : Fabric α) (b : Ledger α) (n : Needle) :
    (f.heldAt n).flatMap (f.leftBehind b n) = [] :=
  List.flatMap_eq_nil_iff.2 fun _ hh => if_pos hh

/-- A list without repetition of rows, one of which has more. -/
theorem flatMap_perm_of_mem {rows : List Held} (hnodup : rows.Nodup) {h : Held} (hh : h ∈ rows)
    {s s' : Held → List Nat} {more : List Nat} (hs : ∀ k ∈ rows, k ≠ h → s' k = s k)
    (hmore : s' h = s h ++ more) : (rows.flatMap s').Perm (rows.flatMap s ++ more) := by
  induction rows with
  | nil => exact absurd hh List.not_mem_nil
  | cons k rows ih =>
    obtain ⟨hk, hnodup⟩ := List.nodup_cons.1 hnodup
    rw [List.flatMap_cons, List.flatMap_cons]
    rcases List.mem_cons.1 hh with rfl | hh
    · have hrest : rows.flatMap s' = rows.flatMap s :=
        List.flatMap_congr fun j hj => hs j (List.mem_cons_of_mem _ hj) fun h => hk (h ▸ hj)
      rw [hrest, hmore, List.append_assoc, List.append_assoc]
      exact (List.perm_append_comm).append_left _
    · have hne : k ≠ h := fun h => hk (h ▸ hh)
      rw [hs k List.mem_cons_self hne, List.append_assoc]
      exact (ih hnodup hh fun j hj => hs j (List.mem_cons_of_mem _ hj)).append_left _

theorem flatMap_concat_of_not_mem {rows : List Held} {h : Held} (hh : h ∉ rows)
    {s s' : Held → List Nat} (hs : ∀ k ∈ rows, k ≠ h → s' k = s k) :
    (rows ++ [h]).flatMap s' = rows.flatMap s ++ s' h := by
  have hrest : rows.flatMap s' = rows.flatMap s :=
    List.flatMap_congr fun k hk => hs k hk fun heq => hh (heq ▸ hk)
  rw [List.flatMap_append, hrest, List.flatMap_singleton]

/-! ## What a call brings back -/

/-- The loops that a call brings back to a needle: those that a row that it lists there had left
behind. -/
def revived (f : Fabric α) (b : Ledger α) : Operation → Needle → List Nat
  | .stitch knit direction n lane, m =>
    if m = n then
      (if knit then [] else f.leftBehind b n (f.stitchRow lane direction n knit))
    else []
  | .transfer source target _, m =>
    if m = target then (f.heldAt source).flatMap (f.leftBehind b target) else []
  | .drop _, _ => []

/-- A call lists a row at a needle where it had left loops behind. -/
def Revives (f : Fabric α) : Operation → Prop
  | .stitch knit direction n lane =>
    knit = false ∧ f.LeftBehind n (f.stitchRow lane direction n knit)
  | .transfer source target _ => ∃ h ∈ f.heldAt source, f.LeftBehind target h
  | .drop _ => False

theorem Tracks.revives_iff {f : Fabric α} {b : Ledger α} (hb : f.Tracks b) (op : Operation) :
    f.Revives op ↔ ∃ m, f.revived b op m ≠ [] := by
  cases op with
  | stitch knit direction n lane =>
    simp only [Revives, revived, ← hb.leftBehind_ne_nil_iff]
    cases knit <;> simp
  | transfer source target laneCount =>
    simp only [Revives, revived, ← hb.leftBehind_ne_nil_iff]
    simp [List.flatMap_eq_nil_iff]
  | drop n => simp [Revives, revived]

variable [Scalar α]

/-! ## One call -/

theorem numbersAt_stitch {f : Fabric α} {b : Ledger α} (hf : f.WellFormed) (hb : f.Tracks b)
    (direction : Direction) (n m : Needle) (lane : Lane) (height : α) (head : Option α)
    (knit : Bool) :
    let row := f.stitchRow lane direction n knit
    ((f.place direction n lane height head knit).1.numbersAt
        (b.stitch (f.tailNumber? b lane.index) (f.seam lane direction n height) row n
          (f.stitchLoop lane direction n height head)) m).Perm
      (if m = n then
        (if knit then [] else f.numbersAt b n) ++ [b.made.length] ++
          (if knit then [] else f.leftBehind b n row)
      else f.numbersAt b m) := by
  dsimp only
  unfold numbersAt
  rw [heldAt_place]
  by_cases hm : m = n
  · subst hm
    rw [if_pos rfl, if_pos rfl]
    have hother := fun k (hk : k ≠ f.stitchRow lane direction m knit) =>
      b.slot_stitch_of_ne (f.tailNumber? b lane.index) (f.seam lane direction m height) hk m m
        (f.stitchLoop lane direction m height head)
    have hnew := b.slot_stitch_self (f.tailNumber? b lane.index) (f.seam lane direction m height)
      (f.stitchRow lane direction m knit) m (f.stitchLoop lane direction m height head)
    cases knit
    · -- A row that is listed grows by the new loop; one that is not brings all that it has there.
      simp only [Bool.false_eq_true, if_false, leftBehind]
      split
      · next hh =>
        rw [List.append_nil]
        exact flatMap_perm_of_mem (hf.record.nodup m) hh (fun k _ hk => hother k hk) hnew
      · next hh =>
        rw [flatMap_concat_of_not_mem hh fun k _ hk => hother k hk, hnew, List.append_assoc]
        exact List.perm_append_comm.append_left _
    · -- The row of a knit had nothing at its needle.
      have hempty := (hb.slot_eq_nil_iff _ _).2 (f.rowLoops_stitchRow_knit lane direction m)
      simp [hnew, hempty]
  · rw [if_neg hm, if_neg hm]
    refine .of_eq (List.flatMap_congr ?_)
    intro k _
    exact if_neg fun h => hm h.2

theorem Transit.numbersAt_moveRow {f : Fabric α} {b : Ledger α} {source : Needle} {h : Held}
    {rows : List Held} (hf : f.Transit source (h :: rows)) (target m : Needle)
    (laneCount : Nat) (height : α) :
    ((f.moveRow source target laneCount height h).1.numbersAt (b.move source target h) m).Perm
      (if m = target then
        f.numbersAt b target ++ b.slot h source ++
          (if source = target then [] else f.leftBehind b target h)
      else f.numbersAt b m) := by
  obtain ⟨habsent, hne⟩ := hf.pending h List.mem_cons_self
  unfold numbersAt
  rw [heldAt_moveRow hne]
  by_cases hm : m = target
  · subst hm
    rw [if_pos rfl, if_pos rfl]
    have hother := fun k (hk : k ≠ h) => b.slot_move_of_ne source m hk m
    have hmoved := b.slot_move_target source m h
    by_cases hs : source = m
    · subst hs
      rw [if_neg habsent, if_pos rfl, flatMap_concat_of_not_mem habsent fun k _ hk => hother k hk,
        hmoved, if_pos rfl, List.nil_append, List.append_nil]
    · rw [if_neg hs] at hmoved ⊢
      unfold leftBehind
      split
      · next hh =>
        rw [List.append_nil]
        exact flatMap_perm_of_mem (hf.wellFormed.record.nodup m) hh (fun k _ hk => hother k hk)
          hmoved
      · next hh =>
        rw [flatMap_concat_of_not_mem hh fun k _ hk => hother k hk, hmoved, List.append_assoc]
        exact List.perm_append_comm.append_left _
  · rw [if_neg hm, if_neg hm]
    refine .of_eq (List.flatMap_congr ?_)
    intro k hk
    -- The moved row is not listed at the source, so what it left there is not counted.
    have hsource : ¬(k = h ∧ m = source) := fun ⟨hk', hm'⟩ => habsent (hk' ▸ hm' ▸ hk)
    simp only [Ledger.move, hm, and_false, if_false, if_neg hsource]

/-- A move leaves another row at the target as it was. -/
theorem leftBehind_moveRow_of_ne (f : Fabric α) (b : Ledger α) {h : Held} {source : Needle}
    (hne : f.rowLoops h source ≠ []) (target : Needle) (laneCount : Nat) (height : α) {k : Held}
    (hk : k ≠ h) :
    (f.moveRow source target laneCount height h).1.leftBehind (b.move source target h) target k =
      f.leftBehind b target k := by
  have hslot := b.slot_move_of_ne source target hk target
  have hheld : k ∈ (f.moveRow source target laneCount height h).1.heldAt target ↔
      k ∈ f.heldAt target := by
    rw [heldAt_moveRow hne, if_pos rfl]
    split
    · rfl
    · simp [hk]
  simp only [leftBehind, hslot, hheld]

theorem Transit.numbersAt_moveRows {f : Fabric α} {b : Ledger α} {source : Needle}
    {rows : List Held} (hf : f.Transit source rows) (target m : Needle) (laneCount : Nat)
    (height : α) :
    ((f.moveRows source target laneCount height rows).numbersAt
        (rows.foldl (fun b h => b.move source target h) b) m).Perm
      (if m = target then
        f.numbersAt b target ++ rows.flatMap (fun h => b.slot h source) ++
          (if source = target then [] else rows.flatMap (f.leftBehind b target))
      else f.numbersAt b m) := by
  induction rows generalizing f b with
  | nil =>
    split
    · next hm =>
      rw [hm]
      simp only [List.foldl_nil, List.flatMap_nil, ite_self, List.append_nil]
      exact .refl _
    · exact .refl _
  | cons h rows ih =>
    have hstep := fun m => hf.numbersAt_moveRow (b := b) target m laneCount height
    have hne := (hf.pending h List.mem_cons_self).2
    have hother : ∀ k ∈ rows, k ≠ h := fun k hk heq => (List.nodup_cons.1 hf.nodup).1 (heq ▸ hk)
    refine (ih (hf.moveRow target laneCount height)).trans ?_
    by_cases hm : m = target
    · rw [if_pos hm, if_pos hm]
      -- The other rows are at the source and the target as they were before this move.
      have hslots : rows.flatMap (fun k => (b.move source target h).slot k source) =
          rows.flatMap fun k => b.slot k source :=
        List.flatMap_congr fun k hk => b.slot_move_of_ne source target (hother k hk) source
      have hbehind : rows.flatMap ((f.moveRow source target laneCount height h).1.leftBehind
          (b.move source target h) target) = rows.flatMap (f.leftBehind b target) :=
        List.flatMap_congr fun k hk =>
          f.leftBehind_moveRow_of_ne b hne target laneCount height (hother k hk)
      rw [hslots, hbehind]
      have htarget := hstep target
      rw [if_pos rfl] at htarget
      refine ((htarget.append_right _).append_right _).trans ?_
      simp only [List.flatMap_cons]
      refine List.perm_iff_count.2 ?_
      intro i
      split <;> simp only [List.count_append, List.count_nil] <;> omega
    · have hsame := hstep m
      rw [if_neg hm] at hsame
      rw [if_neg hm, if_neg hm]
      exact hsame

/-- What a call leaves on each needle: what it leaves on those of the simple machine, and what it
brings back. -/
theorem numbersAt_record {f : Fabric α} {b : Ledger α} (hf : f.WellFormed)
    (hb : f.Tracks b) (op : Operation) (m : Needle) :
    ((f.apply op).numbersAt (f.record b op) m).Perm
      (((f.bench b).step op).on m ++ f.revived b op m) := by
  cases op with
  | stitch knit direction n lane =>
    rw [apply_stitch]
    refine (numbersAt_stitch hf hb direction n m lane _ _ knit).trans (.of_eq ?_)
    simp only [Bench.step, revived, bench]
    split
    · rfl
    · exact (List.append_nil _).symm
  | transfer source target laneCount =>
    rcases f.apply_transfer source target laneCount with ⟨hnone, h⟩ | ⟨height, h⟩
    · -- Nothing is on the source, and nothing moves.
      have hempty := (hf.baseHeight?_eq_none_iff source).1 hnone
      have hnothing : f.numbersAt b source = [] := by rw [numbersAt, hempty, List.flatMap_nil]
      rw [h, record, hempty, List.foldl_nil]
      refine .of_eq ?_
      simp only [Bench.step, revived, bench, hempty, hnothing, List.flatMap_nil, ite_self,
        List.append_nil]
      split
      · rfl
      · split
        · next hm => rw [hm]
        · split
          · next hm => rw [hm, hnothing]
          · rfl
    · rw [h, record]
      refine ((transit_clearHeld hf source).numbersAt_moveRows target m laneCount height).trans
        (.of_eq ?_)
      simp only [Bench.step, revived, bench, numbersAt_clearHeld]
      by_cases hst : source = target
      · subst hst
        simp only [if_true, List.nil_append, List.append_nil, flatMap_leftBehind_self, ite_self]
        split
        · next hm => rw [hm, numbersAt]
        · rfl
      · simp only [if_neg hst, if_neg (Ne.symm hst), leftBehind_clearHeld f b (Ne.symm hst)]
        split
        · rfl
        · exact (List.append_nil _).symm
  | drop n =>
    simp only [Bench.step, revived, bench, List.append_nil]
    refine .of_eq ?_
    rcases f.apply_drop n with ⟨hempty, h⟩ | h
    · rw [h, record]
      split
      · next hm => rw [hm, numbersAt, hempty, List.flatMap_nil]
      · rfl
    · rw [h, record, numbersAt_clearHeld]

theorem length_made_record (f : Fabric α) (b : Ledger α) (op : Operation) :
    (f.record b op).made.length = ((f.bench b).step op).made := by
  cases op with
  | stitch knit direction n lane => simp [record, Ledger.stitch, Bench.step, bench]
  | transfer => exact congrArg List.length (made_record rfl)
  | drop n => rfl

/-! ## Runs -/

/-- No loop is ever missing from the needle that it is on. -/
theorem run_within_bench (g : Geometry α) (ops : List Operation) :
    (Bench.run ops).Within ((run g ops).bench (ledger g ops)) := by
  induction ops using List.reverseRecOn with
  | nil => exact ⟨rfl, fun _ => List.nil_subperm⟩
  | append_singleton ops op ih =>
    rw [Bench.run_concat, run_concat, ledger_concat]
    have hstep := ih.step op
    refine ⟨hstep.made.trans (length_made_record ..).symm, fun m => (hstep.on m).trans ?_⟩
    have hperm := numbersAt_record (wellFormed_run g ops) (tracks_ledger g ops) op m
    exact (List.sublist_append_left _ _).subperm.trans hperm.symm.subperm

/-- As long as no call brings loops back, a needle holds no other loops than those on it. -/
theorem bench_within_run (g : Geometry α) (ops : List Operation)
    (h : ∀ pre op, pre ++ [op] <+: ops → ¬(run g pre).Revives op) :
    ((run g ops).bench (ledger g ops)).Within (Bench.run ops) := by
  induction ops using List.reverseRecOn with
  | nil => exact ⟨rfl, fun _ => List.nil_subperm⟩
  | append_singleton ops op ih =>
    rw [Bench.run_concat, run_concat, ledger_concat]
    have hstep := (ih fun pre op hpre => h pre op (hpre.trans (List.prefix_append ..))).step op
    refine ⟨(length_made_record ..).trans hstep.made, fun m => .trans ?_ (hstep.on m)⟩
    have hperm := numbersAt_record (wellFormed_run g ops) (tracks_ledger g ops) op m
    have hnone : (run g ops).revived (ledger g ops) op m = [] := by
      by_contra hne
      exact h ops op (List.prefix_refl _) (((tracks_ledger g ops).revives_iff op).2 ⟨m, hne⟩)
    rw [hnone, List.append_nil] at hperm
    exact hperm.subperm

/-- What `loopsAt` gives for a needle are the loops of `numbersAt`. Those on the needle are among
them, each once, after every run; and there are no others, throughout a run, exactly when no call of
it lists a row at a needle where the row had left loops behind. -/
theorem loopsAt_exact_iff (g : Geometry α) (ops : List Operation) :
    (∀ n, List.Forall₂ (Ledger.Shows (ledger g ops).made) ((run g ops).numbersAt (ledger g ops) n)
        ((run g ops).loopsAt n) ∧
      ((Bench.run ops).on n).Nodup ∧
      ((Bench.run ops).on n).Subperm ((run g ops).numbersAt (ledger g ops) n)) ∧
    ((∀ pre, pre <+: ops → ∀ n,
        ((run g pre).numbersAt (ledger g pre) n).Perm ((Bench.run pre).on n)) ↔
      ∀ pre op, pre ++ [op] <+: ops → ¬(run g pre).Revives op) := by
  refine ⟨fun n => ⟨(tracks_ledger g ops).loopsAt n, (Bench.sound_run ops).nodup n,
    (run_within_bench g ops).on n⟩, ?_, ?_⟩
  · intro h pre op hpre hrevives
    obtain ⟨m, hne⟩ := ((tracks_ledger g pre).revives_iff op).1 hrevives
    have hbefore : ((run g pre).bench (ledger g pre)).Within (Bench.run pre) :=
      ⟨(run_within_bench g pre).made.symm,
        fun n => (h pre ((List.prefix_append ..).trans hpre) n).subperm⟩
    have hafter := h (pre ++ [op]) hpre m
    rw [run_concat, ledger_concat, Bench.run_concat] at hafter
    have hcall := numbersAt_record (wellFormed_run g pre) (tracks_ledger g pre) op m
    -- The call leaves more on the needle than the simple machine has there.
    have hlength := (hcall.symm.trans hafter).length_eq
    have hle := ((run_within_bench g pre).step op).on m |>.length_le
    have hge := (hbefore.step op).on m |>.length_le
    rw [List.length_append] at hlength
    have hpos := List.length_pos_iff.2 hne
    omega
  · intro h pre hpre n
    have hwithin := bench_within_run g pre fun pre' op h' => h pre' op (h'.trans hpre)
    exact (hwithin.on n).antisymm ((run_within_bench g pre).on n)

/-- A loop that was dropped comes back when its row takes up its needle again. -/
theorem dropped_loop_returns :
    ¬∀ (g : Geometry Float32) (ops : List Operation) (n : Needle),
      ((run g ops).numbersAt (ledger g ops) n).Perm ((Bench.run ops).on n) := by
  intro h
  let n : Needle := ⟨.front, 0⟩
  let tuck : Operation := .stitch false .right n ⟨0, 1⟩
  have hlength := (h .standard [tuck, .drop n, tuck] n).length_eq
  exact absurd hlength (by decide)

end Fabric

end Knitting
