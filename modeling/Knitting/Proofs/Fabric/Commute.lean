import Knitting.Proofs.Fabric.Transfer

set_option autoImplicit false

/-! # Transfers and drops in any order

A call without yarn reads and changes what is on its own needles, and the places of last loops there
(`WellFormed.kept_apply`, `AgreeAt.apply`). So two such calls with no needle in common can change
places (`WellFormed.apply_comm`), and any number of them can be made in any order
(`WellFormed.foldl_apply_perm`). -/

namespace Knitting

/-- The needles that a call is about. -/
def Operation.needles : Operation → List Needle
  | .stitch _ _ n _ => [n]
  | .transfer source target _ => [source, target]
  | .drop n => [n]

/-- Two calls have no needle in common. -/
def Operation.Apart (a b : Operation) : Prop := ∀ n ∈ a.needles, n ∉ b.needles

instance (a b : Operation) : Decidable (a.Apart b) :=
  inferInstanceAs (Decidable (∀ n ∈ a.needles, n ∉ b.needles))

theorem Operation.Apart.symm {a b : Operation} (h : a.Apart b) : b.Apart a :=
  fun n hb ha => h n ha hb

namespace Fabric

variable {α : Type}

/-- Two fabrics have the same on some needles. -/
structure AgreeAt (needles : List Needle) (f g : Fabric α) : Prop where
  geometry : f.geometry = g.geometry
  held : ∀ n ∈ needles, f.heldAt n = g.heldAt n
  loops : ∀ n ∈ needles, ∀ k, f.rowLoops k n = g.rowLoops k n

/-! ## The places of the last loops -/

/-- What a call without yarn does to the frame of the path of a lane. -/
def relocation (f : Fabric α) (c : Nat) :
    Operation → List Direction × Option LoopPlace → List Direction × Option LoopPlace
  | .transfer source target _ => relocateFrame c (f.heldAt source) source target
  | .stitch _ _ _ _ => id
  | .drop _ => id

theorem AgreeAt.relocation {f g : Fabric α} {op : Operation} (h : AgreeAt op.needles f g)
    (c : Nat) :
    f.relocation c op = g.relocation c op := by
  cases op with
  | transfer source target laneCount =>
    simp only [Fabric.relocation, h.held source (by simp [Operation.needles])]
  | _ => rfl

/-- A last loop that one transfer takes along is left alone by another that has no needle in common
with it. -/
theorem relocation_comm (f g : Fabric α) {a b : Operation} (h : a.Apart b) (c : Nat) :
    f.relocation c a ∘ g.relocation c b = g.relocation c b ∘ f.relocation c a := by
  cases a with
  | transfer source target laneCount =>
    cases b with
    | transfer source' target' laneCount' =>
      have hne := h source (by simp [Operation.needles])
      have hne' := h target (by simp [Operation.needles])
      simp only [Operation.needles, List.mem_cons, List.not_mem_nil, or_false, not_or] at hne hne'
      funext frame
      simp only [relocation, relocateFrame, Function.comp_apply, Option.map_map, Prod.mk.injEq,
        true_and]
      refine congrFun (congrArg Option.map (funext ?_)) frame.2
      rintro ⟨row, needle⟩
      simp only [Function.comp_apply, LoopPlace.relocate]
      by_cases hat : needle = source
      · by_cases hk : (⟨c, row⟩ : Held) ∈ f.heldAt source
        · simp [hat, hk, hne.1, hne'.1]
        · simp [hat, hk, hne.1]
      · by_cases hat' : needle = source' ∧ (⟨c, row⟩ : Held) ∈ g.heldAt source'
        · simp [hat'.1, hat'.2, Ne.symm hne.1, Ne.symm hne.2]
        · have hkept : ¬((⟨c, row⟩ : Held) ∈ g.heldAt source' ∧ needle = source') :=
            fun h => hat' ⟨h.2, h.1⟩
          simp [hat, hkept]
    | _ => rfl
  | _ => rfl

variable [Scalar α]

/-! ## What is reported -/

/-- What a call reports. -/
def outcome (f : Fabric α) : Operation → Except Warning (List Event)
  | .stitch _ _ _ _ => .ok []
  | .transfer source target laneCount => (f.transfer source target laneCount).map Prod.snd
  | .drop n => (f.drop n).map Prod.snd

/-- What the calls of a list report, each on the fabric that those before it left. -/
def outcomes (f : Fabric α) : List Operation → List (Except Warning (List Event))
  | [] => []
  | op :: ops => f.outcome op :: (f.apply op).outcomes ops

theorem AgreeAt.baseHeight? {needles : List Needle} {f g : Fabric α} (h : AgreeAt needles f g)
    {n : Needle} (hn : n ∈ needles) : f.baseHeight? n = g.baseHeight? n := by
  simp only [Fabric.baseHeight?, loopsAt, h.geometry, h.held n hn, h.loops n hn]

/-! ## The needles of a call -/

section Call

variable {f g : Fabric α} {op : Operation}

/-- A call without yarn leaves alone what is on other needles than its own. -/
theorem WellFormed.kept_apply (hf : f.WellFormed) (hop : op.lane? = none) {m : Needle}
    (hm : m ∉ op.needles) :
    (f.apply op).heldAt m = f.heldAt m ∧ ∀ k, (f.apply op).rowLoops k m = f.rowLoops k m := by
  cases op with
  | stitch => simp [Operation.lane?] at hop
  | transfer source target laneCount =>
    have htransferred := hf.transferredTo source target laneCount
    simp only [Operation.needles, List.mem_cons, List.not_mem_nil, or_false, not_or] at hm
    refine ⟨?_, fun k => htransferred.movesOnly.others k m ?_⟩
    · rw [htransferred.held, if_neg hm.2, heldAt_clearHeld, if_neg hm.1]
    · rintro ⟨-, hsource | htarget⟩
      · exact hm.1 hsource
      · exact hm.2 htarget
  | drop n =>
    simp only [Operation.needles, List.mem_singleton] at hm
    rcases f.apply_drop n with ⟨-, h⟩ | h
    · simp [h]
    · rw [h, heldAt_clearHeld, if_neg hm]
      exact ⟨rfl, fun k => rowLoops_congr (store_clearHeld f n) k m⟩

/-- What a call without yarn does to its needles, and what it reports, depends on what is on them
alone. -/
theorem AgreeAt.apply (hf : f.WellFormed) (hg : g.WellFormed) (hop : op.lane? = none)
    (h : AgreeAt op.needles f g) :
    AgreeAt op.needles (f.apply op) (g.apply op) ∧ f.outcome op = g.outcome op := by
  have hgeometry : (f.apply op).geometry = (g.apply op).geometry := by
    rw [(f.apply_kept hop).2, (g.apply_kept hop).2, h.geometry]
  cases op with
  | stitch => simp [Operation.lane?] at hop
  | transfer source target laneCount =>
    have hsource : source ∈ (Operation.transfer source target laneCount).needles := by
      simp [Operation.needles]
    have htarget : target ∈ (Operation.transfer source target laneCount).needles := by
      simp [Operation.needles]
    have hf' := hf.transferredTo source target laneCount
    have hg' := hg.transferredTo source target laneCount
    have hlanding : f.landingHeight source target = g.landingHeight source target := by
      rw [landingHeight, landingHeight, h.baseHeight? hsource, h.baseHeight? htarget]
    refine ⟨⟨hgeometry, ?_, ?_⟩, ?_⟩
    · intro m hm
      simp only [hf'.held, hg'.held, heldAt_clearHeld, h.held _ hsource, h.held _ htarget,
        h.held m hm]
    · intro m hm k
      simp only [hf'.loops, hg'.loops, hlanding, h.held _ hsource, h.loops _ htarget k,
        h.loops m hm k, movedLoops_congr h.geometry (h.loops _ hsource k)]
    · -- The event of each row counts loops at the source.
      have hevent : f.movedEvent source target = g.movedEvent source target := by
        funext k
        rw [movedEvent, movedEvent, h.loops _ hsource]
      by_cases hheld : f.heldAt source = []
      · have hheld' : g.heldAt source = [] := h.held _ hsource ▸ hheld
        simp only [outcome, (hf.transfer_warns_iff source target laneCount).2 ⟨hheld, rfl⟩,
          (hg.transfer_warns_iff source target laneCount).2 ⟨hheld', rfl⟩]
      · have hheld' : g.heldAt source ≠ [] := h.held _ hsource ▸ hheld
        simp only [outcome, hf.transfer_eq_ok hheld, hg.transfer_eq_ok hheld', hevent,
          h.held _ hsource, Except.map]
  | drop n =>
    have hn : n ∈ (Operation.drop n).needles := by simp [Operation.needles]
    have hcleared : ∀ {f : Fabric α}, f.WellFormed → f.apply (.drop n) = f.clearHeld n := by
      intro f hf
      rcases f.apply_drop n with ⟨hfree, h⟩ | h
      · rw [h, hf.clearHeld_eq_self hfree]
      · exact h
    refine ⟨⟨hgeometry, ?_, ?_⟩, ?_⟩
    · intro m hm
      simp only [hcleared hf, hcleared hg, heldAt_clearHeld, h.held m hm]
    · intro m hm k
      rw [hcleared hf, hcleared hg, rowLoops_congr (store_clearHeld f n),
        rowLoops_congr (store_clearHeld g n), h.loops m hm]
    · simp only [outcome, drop, h.held n hn]
      cases g.heldAt n <;> rfl

theorem WellFormed.frame?_apply (hf : f.WellFormed) (hop : op.lane? = none) (c : Nat) :
    (f.apply op).frame? c = (f.frame? c).map (f.relocation c op) := by
  cases op with
  | stitch => simp [Operation.lane?] at hop
  | transfer source target laneCount => exact (hf.transferredTo source target laneCount).frames c
  | drop n =>
    rw [relocation, Option.map_id]
    rcases f.apply_drop n with ⟨-, h⟩ | h
    · rw [h]
      rfl
    · rw [h]
      rfl

end Call

/-! ## Two calls -/

section Two

variable {f : Fabric α} {a b : Operation}

/-- A call without yarn finds on its needles what was there before another that has none of them. -/
theorem WellFormed.agreeAt_apply (hf : f.WellFormed) (hb : b.lane? = none) (h : a.Apart b) :
    AgreeAt a.needles f (f.apply b) where
  geometry := (f.apply_kept hb).2.symm
  held n hn := (hf.kept_apply hb (h n hn)).1.symm
  loops n hn k := ((hf.kept_apply hb (h n hn)).2 k).symm

/-- Two calls without yarn leave the same on a needle that one of them does not have, whichever
comes first. -/
theorem WellFormed.agree_comm (hf : f.WellFormed) (ha : a.lane? = none) (hb : b.lane? = none)
    (h : a.Apart b) {m : Needle} (hm : m ∉ b.needles) :
    ((f.apply a).apply b).heldAt m = ((f.apply b).apply a).heldAt m ∧
      ∀ k, ((f.apply a).apply b).rowLoops k m = ((f.apply b).apply a).rowLoops k m := by
  obtain ⟨hheld, hloops⟩ := (hf.apply a).kept_apply hb hm
  rw [hheld]
  simp only [hloops]
  by_cases hma : m ∈ a.needles
  · obtain ⟨hagree, -⟩ := (hf.agreeAt_apply hb h).apply hf (hf.apply b) ha
    exact ⟨hagree.held m hma, hagree.loops m hma⟩
  · obtain ⟨hheld, hloops⟩ := (hf.apply b).kept_apply ha hma
    obtain ⟨hheld', hloops'⟩ := hf.kept_apply hb hm
    obtain ⟨hheld'', hloops''⟩ := hf.kept_apply ha hma
    refine ⟨?_, ?_⟩
    · rw [hheld, hheld', hheld'']
    · intro k
      rw [hloops, hloops', hloops'']

/-- Two calls without yarn that have no needle in common can change places. -/
theorem WellFormed.apply_comm (hf : f.WellFormed) (ha : a.lane? = none) (hb : b.lane? = none)
    (h : a.Apart b) : (f.apply a).apply b = (f.apply b).apply a := by
  have hkept := fun (g : Fabric α) => g.apply_kept ha
  have hkept' := fun (g : Fabric α) => g.apply_kept hb
  have hview : ∀ m, ((f.apply a).apply b).heldAt m = ((f.apply b).apply a).heldAt m ∧
      ∀ k, ((f.apply a).apply b).rowLoops k m = ((f.apply b).apply a).rowLoops k m := by
    intro m
    by_cases hm : m ∈ b.needles
    · obtain ⟨hheld, hloops⟩ := hf.agree_comm hb ha h.symm (h.symm m hm)
      exact ⟨hheld.symm, fun k => (hloops k).symm⟩
    · exact hf.agree_comm ha hb h hm
  refine ((hf.apply a).apply b).ext ((hf.apply b).apply a) ?_ ?_ (fun m => (hview m).1) ?_
    fun k m => (hview m).2 k
  · rw [(hkept' _).2, (hkept _).2, (hkept _).2, (hkept' _).2]
  · rw [(hkept' _).1, (hkept _).1, (hkept _).1, (hkept' _).1]
  · intro c
    rw [(hf.apply a).frame?_apply hb, hf.frame?_apply ha, (hf.apply b).frame?_apply ha,
      hf.frame?_apply hb, Option.map_map, Option.map_map,
      ← (hf.agreeAt_apply ha h.symm).relocation c, ← (hf.agreeAt_apply hb h).relocation c,
      relocation_comm f f h.symm c]

/-- A call without yarn reports the same before and after another that has none of its needles. -/
theorem WellFormed.outcome_apply (hf : f.WellFormed) (ha : a.lane? = none) (hb : b.lane? = none)
    (h : a.Apart b) : (f.apply b).outcome a = f.outcome a :=
  ((hf.agreeAt_apply hb h).apply hf (hf.apply b) ha).2.symm

end Two

/-! ## Any number of calls -/

/-- Calls without yarn, no two of which have a needle in common, leave the same in any order. -/
theorem WellFormed.foldl_apply_perm {f : Fabric α} (hf : f.WellFormed) {ops ops' : List Operation}
    (hperm : ops.Perm ops') (hyarn : ∀ op ∈ ops, op.lane? = none)
    (hapart : ops.Pairwise Operation.Apart) :
    ops.foldl Fabric.apply f = ops'.foldl Fabric.apply f := by
  induction hperm generalizing f with
  | nil => rfl
  | cons op _ ih =>
    exact ih (hf.apply op) (fun o ho => hyarn o (List.mem_cons_of_mem _ ho)) hapart.of_cons
  | swap a b ops =>
    have ha := hyarn a (by simp)
    have hb := hyarn b (by simp)
    have hab : b.Apart a := (List.pairwise_cons.1 hapart).1 a List.mem_cons_self
    simp only [List.foldl_cons]
    rw [hf.apply_comm hb ha hab]
  | trans hperm _ ih ih' =>
    refine (ih hf hyarn hapart).trans (ih' hf ?_ ?_)
    · intro op hop
      exact hyarn op (hperm.mem_iff.2 hop)
    · exact hperm.pairwise hapart fun {a b} h => h.symm

/-- Each of them reports what it would if it were the only one. -/
theorem WellFormed.outcomes_eq_map {f : Fabric α} (hf : f.WellFormed) {ops : List Operation}
    (hyarn : ∀ op ∈ ops, op.lane? = none) (hapart : ops.Pairwise Operation.Apart) :
    f.outcomes ops = ops.map f.outcome := by
  induction ops generalizing f with
  | nil => rfl
  | cons op ops ih =>
    obtain ⟨hop, hops⟩ := List.forall_mem_cons.1 hyarn
    obtain ⟨habove, hrest⟩ := List.pairwise_cons.1 hapart
    rw [outcomes, ih (hf.apply op) hops hrest, List.map_cons]
    refine congrArg _ (List.map_congr_left ?_)
    intro o ho
    exact hf.outcome_apply (hops o ho) hop (habove o ho).symm

/-- They leave the same in another order, and report the same. -/
theorem WellFormed.reorder {f : Fabric α} (hf : f.WellFormed) {ops ops' : List Operation}
    (hperm : ops.Perm ops') (hyarn : ∀ op ∈ ops, op.lane? = none)
    (hapart : ops.Pairwise Operation.Apart) :
    ops.foldl Fabric.apply f = ops'.foldl Fabric.apply f ∧
      f.outcomes ops' = ops'.map f.outcome := by
  refine ⟨hf.foldl_apply_perm hperm hyarn hapart, hf.outcomes_eq_map ?_ ?_⟩
  · intro op hop
    exact hyarn op (hperm.mem_iff.2 hop)
  · exact hperm.pairwise hapart fun h => h.symm

end Fabric

end Knitting
