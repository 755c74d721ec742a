import Knitting.Machine
import Knitting.Proofs.Fabric.Commute
import Knitting.Proofs.Number.Whole
import Knitting.Proofs.Pass.Blocks
import Knitting.Proofs.Pass.Cascade

set_option autoImplicit false

/-! # Passes without yarn

A pass without yarn does transfers or drops, each at a slot of its own (`Pass.Covers`). At one
racking a needle has one slot, so no two of them have a needle in common. The passes of a schedule
cover stretches of the calls that were made while it was filled (`Schedule.Covers`). -/

namespace Knitting

/-- Rackings that are equal as numbers shift the back bed alike. -/
theorem Racking.shift?_of_beq {x y : Float} (h : (x == y) = true) :
    Racking.shift? x = Racking.shift? y := by
  have hx := Number.reads_ofFloat x
  have hy := Number.reads_ofFloat y
  unfold Racking.shift?
  generalize Number.Value.ofFloat x = a at hx ⊢
  generalize Number.Value.ofFloat y = b at hy ⊢
  rcases Number.eq_or_zero_of_beq h with heq | ⟨s, t, hzero, hzero'⟩
  · rw [heq] at hx
    generalize y.toModel.unpack = u at hx hy
    cases hx <;> cases hy <;> rfl
  · rw [hzero] at hx
    rw [hzero'] at hy
    cases hx
    cases hy
    rfl

theorem Needle.slot?_of_beq (n : Needle) {x y : Float} (h : (x == y) = true) :
    n.slot? x = n.slot? y := by
  rw [slot?, slot?, Racking.shift?_of_beq h]

theorem Needle.slot?_of_slot {n : Needle} {racking : Float} {slot : Int}
    (h : n.slot racking = .ok slot) : n.slot? racking = some slot := by
  unfold Needle.slot at h
  split at h
  · next hslot => rw [hslot, Except.ok.inj h]
  · simp at h

/-! ## Calls at slots -/

/-- At a racking a call without yarn is what a pass does at one of its slots: to drop the loops of a
needle that is there, or to take the loops of one to the other. -/
inductive Operation.DoneAt (racking : Float) : Operation → Int × SlotOp → Prop
  | drop {n : Needle} {slot : Int} (hn : n.slot? racking = some slot) :
      DoneAt racking (.drop n) (slot, Machine.slotOp .knit n.bed.isFront)
  | transfer {source target : Needle} {slot : Int} (hsource : source.slot? racking = some slot)
      (htarget : target.slot? racking = some slot) (laneCount : Nat) :
      DoneAt racking (.transfer source target laneCount)
        (slot, Machine.splitOp source.bed.isFront false)

namespace Operation

variable {op other : Operation} {racking : Float} {e e' : Int × SlotOp}

theorem DoneAt.bare (h : op.DoneAt racking e) : op.lane? = none := by
  cases h <;> rfl

theorem DoneAt.slot (h : op.DoneAt racking e) : ∀ n ∈ op.needles, n.slot? racking = some e.1 := by
  cases h with
  | drop hn => simpa [needles] using hn
  | transfer hsource htarget => simpa [needles] using ⟨hsource, htarget⟩

/-- It waits for nothing else at its slot. -/
theorem DoneAt.busy (h : op.DoneAt racking e) : e.2 ≠ .softMiss := by
  cases h with
  | @drop n => cases n.bed.isFront <;> exact SlotOp.noConfusion
  | @transfer source => cases source.bed.isFront <;> exact SlotOp.noConfusion

theorem DoneAt.of_beq {racking' : Float} (h : op.DoneAt racking' e)
    (hracking : (racking == racking') = true) : op.DoneAt racking e := by
  cases h with
  | drop hn => exact .drop (by rwa [Needle.slot?_of_beq _ hracking])
  | transfer hsource htarget laneCount =>
    refine .transfer ?_ ?_ laneCount
    · rwa [Needle.slot?_of_beq _ hracking]
    · rwa [Needle.slot?_of_beq _ hracking]

/-- At one racking, different slots are different needles. -/
theorem DoneAt.apart (h : op.DoneAt racking e) (h' : other.DoneAt racking e') (hne : e.1 ≠ e'.1) :
    op.Apart other := by
  intro n hn hn'
  exact hne (Option.some.inj ((h.slot n hn).symm.trans (h'.slot n hn')))

end Operation

/-- Calls without yarn are what a pass does at its slots, one after the other. -/
abbrev DoneInTurn (racking : Float) : List Operation → List (Int × SlotOp) → Prop :=
  List.Forall₂ (Operation.DoneAt racking)

namespace DoneInTurn

variable {racking : Float} {ops : List Operation} {entries : List (Int × SlotOp)}

theorem exists_entry (h : DoneInTurn racking ops entries) {op : Operation} (hop : op ∈ ops) :
    ∃ e ∈ entries, op.DoneAt racking e := by
  induction h with
  | nil => simp at hop
  | @cons _ e _ _ hat _ ih =>
    rcases List.mem_cons.1 hop with rfl | hop
    · exact ⟨e, List.mem_cons_self, hat⟩
    · obtain ⟨e', he', hat'⟩ := ih hop
      exact ⟨e', List.mem_cons_of_mem _ he', hat'⟩

theorem bare (h : DoneInTurn racking ops entries) : ∀ op ∈ ops, op.lane? = none := by
  intro op hop
  obtain ⟨e, -, hat⟩ := exists_entry h hop
  exact hat.bare

theorem busy (h : DoneInTurn racking ops entries) : ∀ e ∈ entries, e.2 ≠ .softMiss := by
  induction h with
  | nil => simp
  | cons hat _ ih => exact List.forall_mem_cons.2 ⟨hat.busy, ih⟩

theorem apart (h : DoneInTurn racking ops entries) (hslots : (entries.map Prod.fst).Nodup) :
    ops.Pairwise Operation.Apart := by
  induction h with
  | nil => exact .nil
  | @cons op e ops entries hat hrest ih =>
    obtain ⟨hnew, hslots⟩ := List.nodup_cons.1 hslots
    refine List.pairwise_cons.2 ⟨?_, ih hslots⟩
    intro other hother
    obtain ⟨e', he', hat'⟩ := exists_entry hrest hother
    exact hat.apart hat' fun heq => hnew (heq ▸ List.mem_map_of_mem he')

end DoneInTurn

/-! ## What a pass covers -/

namespace Pass

/-- A pass without yarn that works on loops. -/
def IsBare (p : Pass) : Prop := p.carriers = [] ∧ p.kind ≠ .aMiss

instance (p : Pass) : Decidable p.IsBare := inferInstanceAs (Decidable (_ ∧ _))

/-- A pass covers some calls: what it does at its slots are these calls, in whatever order. -/
def Covers (p : Pass) (block : List Operation) : Prop :=
  ∃ entries, DoneInTurn p.racking block entries ∧ entries.Perm p.slots.entries

variable {p joined : Pass} {block : List Operation}

/-- The calls that a pass covers can be put in the order of its slots. -/
theorem Covers.exists_sorted (h : p.Covers block) :
    ∃ sorted, sorted.Perm block ∧ DoneInTurn p.racking sorted p.slots.entries := by
  obtain ⟨entries, hdone, hperm⟩ := h
  have hcomp : Relation.Comp (DoneInTurn p.racking) List.Perm block p.slots.entries :=
    ⟨entries, hdone, hperm⟩
  rw [List.forall₂_comp_perm_eq_perm_comp_forall₂] at hcomp
  obtain ⟨sorted, hsorted, hdone⟩ := hcomp
  exact ⟨sorted, hsorted.symm, hdone⟩

theorem Covers.bare (h : p.Covers block) : ∀ op ∈ block, op.lane? = none := by
  obtain ⟨entries, hdone, -⟩ := h
  exact DoneInTurn.bare hdone

/-- No two of the calls that a pass covers have a needle in common. -/
theorem Covers.apart (h : p.Covers block) : block.Pairwise Operation.Apart := by
  obtain ⟨entries, hdone, hperm⟩ := h
  have hkeys : p.slots.keys.Nodup := p.slots.pairwise_keys.imp Int.ne_of_lt
  exact DoneInTurn.apart hdone ((hperm.map Prod.fst).nodup_iff.2 hkeys)

section Single

variable {kind : PassKind} {slot : Int} {slotOp : SlotOp} {racking : Float} {stitch : Nat}
  {direction : Direction} {names : List String} {op : Operation}

theorem covers_single (hop : op.DoneAt racking (slot, slotOp)) :
    (single kind slot slotOp racking stitch direction names).Covers [op] :=
  ⟨[(slot, slotOp)], .cons hop .nil, .refl _⟩

/-- A pass that takes in another one covers the call of that too. -/
theorem Covers.absorb (h : p.Covers block) (hop : op.DoneAt racking (slot, slotOp))
    (hjoin : p.absorb? (single kind slot slotOp racking stitch direction names) = some joined) :
    joined.Covers (block ++ [op]) := by
  obtain ⟨entries, hdone, hperm⟩ := h
  obtain ⟨-, hagrees, slots, hslots, rfl⟩ := absorb?_eq_some hjoin
  have hadd : addSlot? p.direction p.slots slot slotOp = some slots := by
    simpa [single, Table.insert, Table.insertEntry, Table.empty, addSlots?] using hslots
  have hbusy : ∀ e ∈ p.slots.entries, e.2 ≠ .softMiss := fun e he =>
    DoneInTurn.busy hdone e (hperm.mem_iff.2 he)
  obtain ⟨-, hnew, rfl⟩ := addSlot?_eq_some hbusy hop.busy hadd
  simp only [agrees, Bool.and_eq_true] at hagrees
  have hracking : (p.racking == racking) = true := hagrees.1.1.1.2
  refine ⟨entries ++ [(slot, slotOp)], ?_, ?_⟩
  · exact List.rel_append hdone (.cons (hop.of_beq hracking) .nil)
  · have hinsert := (hperm.cons (slot, slotOp)).trans (Table.entries_insert_perm hnew slotOp).symm
    exact (List.perm_append_singleton _ _).trans hinsert

end Single

end Pass

/-! ## What a schedule covers -/

/-- A pass covers a stretch of some calls. -/
def Pass.CoversPart (p : Pass) (ops : List Operation) : Prop :=
  ∃ before block after, ops = before ++ block ++ after ∧ p.Covers block

theorem Pass.CoversPart.append {p : Pass} {ops : List Operation} (h : p.CoversPart ops)
    (more : List Operation) : p.CoversPart (ops ++ more) := by
  obtain ⟨before, block, after, rfl, hblock⟩ := h
  exact ⟨before, block, after ++ more, by simp, hblock⟩

namespace Schedule

/-- The passes of a schedule that work without yarn cover stretches of some calls, an open one the
last of them. -/
structure Covers (s : Schedule) (ops : List Operation) : Prop where
  closed : ∀ p ∈ s.closed, p.IsBare → p.CoversPart ops
  openPass : ∀ p ∈ s.openPass, p.IsBare → ∃ before block, ops = before ++ block ∧ p.Covers block

variable {s : Schedule} {ops : List Operation}

theorem covers_empty : Schedule.empty.Covers [] := ⟨nofun, nofun⟩

/-- Every pass without yarn covers some calls. -/
theorem Covers.passes (h : s.Covers ops) {p : Pass} (hp : p ∈ s.passes) (hbare : p.IsBare) :
    p.CoversPart ops := by
  rcases List.mem_append.1 hp with hp | hp
  · exact h.closed p hp hbare
  · obtain ⟨before, block, rfl, hblock⟩ := h.openPass p (by simpa using hp) hbare
    exact ⟨before, block, [], by simp, hblock⟩

/-- Passes that one sweep does are both without yarn, or neither is. -/
theorem isBare_of_absorb? {p q joined : Pass} (h : p.absorb? q = some joined) :
    (joined.IsBare ↔ p.IsBare) ∧ (p.IsBare ↔ q.IsBare) := by
  obtain ⟨-, hagrees, slots, -, rfl⟩ := Pass.absorb?_eq_some h
  simp only [Pass.agrees, Bool.and_eq_true, decide_eq_true_eq] at hagrees
  obtain ⟨⟨⟨⟨⟨-, hkind⟩, -⟩, -⟩, -⟩, hcarriers⟩ := hagrees
  exact ⟨Iff.rfl, by rw [Pass.IsBare, Pass.IsBare, hkind, hcarriers]⟩

/-- A pass is added, and with it calls that it covers if it is without yarn, alone and behind what
the pass that takes it in covers. -/
theorem Covers.append (h : s.Covers ops) {q : Pass} {more : List Operation}
    (hnew : q.IsBare → q.Covers more)
    (hjoins : ∀ {p joined : Pass} {block : List Operation}, q.IsBare → p.Covers block →
      p.absorb? q = some joined → joined.Covers (block ++ more)) :
    (s.append q).1.Covers (ops ++ more) := by
  have hclosed : ∀ p ∈ s.closed, p.IsBare → p.CoversPart (ops ++ more) :=
    fun p hp hbare => (h.closed p hp hbare).append more
  have hopened : ∀ p ∈ some q, p.IsBare →
      ∃ before block, ops ++ more = before ++ block ∧ p.Covers block := by
    rintro p ⟨⟩ hbare
    exact ⟨ops, more, rfl, hnew hbare⟩
  unfold Schedule.append
  cases hopen : s.openPass with
  | none => exact ⟨hclosed, hopened⟩
  | some last =>
    dsimp only
    split
    · next joined hjoin =>
      obtain ⟨hjoined, hlast⟩ := isBare_of_absorb? hjoin
      refine ⟨hclosed, ?_⟩
      rintro p ⟨⟩ hbare
      obtain ⟨before, block, rfl, hblock⟩ := h.openPass last hopen (hjoined.1 hbare)
      exact ⟨before, block ++ more, by simp, hjoins (hlast.1 (hjoined.1 hbare)) hblock hjoin⟩
    · refine ⟨?_, hopened⟩
      intro p hp hbare
      have hpasses : p ∈ s.passes := by
        rw [Schedule.passes, hopen]
        exact hp
      exact (h.passes hpasses hbare).append more

/-- While a pass with yarn is open, calls are covered by no pass. -/
theorem Covers.yarn (h : s.Covers ops) {q : Pass} (hq : ¬q.IsBare) (more : List Operation) :
    (s.append q).1.Covers (ops ++ more) :=
  h.append (fun hbare => absurd hbare hq) fun hbare => absurd hbare hq

theorem Covers.yarnAll (h : s.Covers ops) {ps : List Pass} (hps : ∀ p ∈ ps, ¬p.IsBare) :
    (s.appendAll ps).Covers ops :=
  List.foldlRecOn ps (fun s p => (s.append p).1) (motive := (Covers · ops)) h
    fun _ hs p hp => ops.append_nil ▸ hs.yarn (hps p hp) []

/-- A pass that does one thing without yarn covers the call for it, in the open pass or as a new
one. -/
theorem Covers.single (h : s.Covers ops) {slot : Int} {slotOp : SlotOp} {racking : Float}
    {op : Operation} (hop : op.DoneAt racking (slot, slotOp)) (kind : PassKind) (stitch : Nat)
    (direction : Direction) (names : List String) :
    (s.append (.single kind slot slotOp racking stitch direction names)).1.Covers (ops ++ [op]) :=
  h.append (fun _ => Pass.covers_single hop) fun _ hblock hjoin => hblock.absorb hop hjoin

/-- What is tied to the open pass has no part in what it covers. -/
theorem Covers.withActions {s' : Schedule} (h : s.Covers ops) (hclosed : s'.closed = s.closed)
    (hopen : s'.openPass = s.openPass ∨ ∃ p hook gripper, s.openPass = some p ∧
      s'.openPass = some { p with hook, gripper }) : s'.Covers ops where
  closed := hclosed ▸ h.closed
  openPass := by
    rcases hopen with hopen | ⟨p, hook, gripper, hopen, hopen'⟩
    · exact hopen ▸ h.openPass
    · rw [hopen']
      rintro q ⟨⟩ hbare
      obtain ⟨before, block, heq, hblock⟩ := h.openPass p hopen hbare
      exact ⟨before, block, heq, hblock⟩

/-- A pass without yarn finds nothing in its way. -/
theorem schedule_submit_bare {carriers : Carriers} {racking : Float} {p : Pass} {r : Submission}
    (hbare : p.carriers = []) (hsubmit : s.submit carriers racking p = .ok r) :
    r.schedule = (s.append p).1 := by
  have hnone : ∀ settled, p.blockers carriers racking settled = [] := by
    intro settled
    unfold Pass.blockers
    split
    · rfl
    · rw [hbare]
      rfl
  unfold submit at hsubmit
  split at hsubmit
  · simp at hsubmit
  · obtain rfl := Except.ok.inj hsubmit
    rw [Submission.resolve, hnone]
    rfl

end Schedule

end Knitting
