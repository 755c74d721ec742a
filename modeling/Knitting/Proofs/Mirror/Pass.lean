import Knitting.Proofs.Mirror.Carrier
import Knitting.Proofs.Mirror.Table
import Knitting.Proofs.Pass.Work
import Mathlib

set_option autoImplicit false

/-! # Passes in a mirror

The image of a pass is a sweep the other way over the images of its slots. Which passes are joined
into one, which carriers are in the way of a pass and what is kicked for it is the same in the
mirror: a sweep goes on at its last slot, which is the first one of its image, and the zone in which
it comes to rest lies on the other side (`Schedule.Mirrors.submit`). Only passes that work at a
single slot are scheduled, so that what a pass does at its slots in turn need not be turned
round. -/

namespace Knitting

/-! ## Slots -/

namespace Table

variable {ν : Type}

/-- The same values at the negated keys. -/
def negated (t : Table Int ν) : Table Int ν where
  entries := (t.entries.map fun e => (-e.1, e.2)).reverse
  ascending := by
    refine List.pairwise_reverse.2 (List.pairwise_map.2 (t.ascending.imp ?_))
    intro a b hab
    rw [Int.compare_eq_lt] at hab ⊢
    exact Int.neg_lt_neg hab

@[simp] theorem negated_empty : (empty : Table Int ν).negated = empty := rfl

theorem get?_negated (t : Table Int ν) (k : Int) : t.negated.get? k = t.get? (-k) := by
  ext v
  rw [get?_eq_some_iff, get?_eq_some_iff, negated, List.mem_reverse, List.mem_map]
  constructor
  · rintro ⟨⟨l, w⟩, hl, heq⟩
    obtain ⟨rfl, rfl⟩ := Prod.mk.inj heq
    rwa [Int.neg_neg]
  · intro hk
    exact ⟨(-k, v), hk, by rw [Int.neg_neg]⟩

theorem insert_negated (t : Table Int ν) (k : Int) (v : ν) :
    (t.insert k v).negated = t.negated.insert (-k) v := by
  refine ext_get? ?_
  intro l
  have hl : -l = k ↔ l = -k := by omega
  rw [get?_negated, get?_insert, get?_insert, get?_negated]
  simp only [hl]

theorem keys_negated (t : Table Int ν) : t.negated.keys = (t.keys.map Neg.neg).reverse := by
  simp [negated, keys, Function.comp_def]

end Table

namespace Pass

theorem inSweepOrder_negated (direction : Direction) (slots : Table Int SlotOp) (slot : Int) :
    inSweepOrder direction.opposite slots.negated (-slot) = inSweepOrder direction slots slot := by
  cases direction with
  | left =>
    simp only [inSweepOrder, Direction.opposite, Table.keys_negated, List.getLast?_reverse,
      List.head?_map, Option.all_map]
    congr 1
    funext last
    simp
  | right =>
    simp only [inSweepOrder, Direction.opposite, Table.keys_negated, List.head?_reverse,
      List.getLast?_map, Option.all_map]
    congr 1
    funext last
    simp
  | undirected => rfl

/-- What can be added to a sweep can be added to its image. -/
theorem addSlot?_negated (direction : Direction) (slots : Table Int SlotOp) (slot : Int)
    (op : SlotOp) : addSlot? direction.opposite slots.negated (-slot) op =
      (addSlot? direction slots slot op).map Table.negated := by
  unfold addSlot?
  rw [inSweepOrder_negated, Table.get?_negated, Int.neg_neg]
  split
  · cases slots.get? slot with
    | none => exact congrArg some (slots.insert_negated slot op).symm
    | some first =>
      dsimp only
      rw [Option.map_map]
      congr 1
      funext merged
      exact (slots.insert_negated slot merged).symm
  · rfl

/-! ## Passes -/

/-- The image of a pass. -/
structure Mirrors (p p' : Pass) : Prop where
  kind : p'.kind = p.kind
  slots : p'.slots = p.slots.negated
  racking : Racking.Mirrors p.racking p'.racking
  stitch : p'.stitch = p.stitch
  direction : p'.direction = p.direction.opposite
  carriers : p'.carriers = p.carriers
  hook : p'.hook = p.hook
  gripper : p'.gripper = p.gripper
  kick : p'.kick = p.kick

/-- A pass works at one slot only, and that is not too far out. -/
def IsAt (p : Pass) (slot : Int) : Prop :=
  slot.natAbs ≤ 2 ^ 30 ∧ ∃ op, p.slots = Table.empty.insert slot op

theorem IsAt.onlySlot? {p : Pass} {slot : Int} (h : p.IsAt slot) : p.onlySlot? = some slot := by
  obtain ⟨-, op, hslots⟩ := h
  rw [Pass.onlySlot?, hslots]
  rfl

theorem mirrors_single {racking racking' : Float} (h : Racking.Mirrors racking racking')
    (kind : PassKind) (slot : Int) (op : SlotOp) (stitch : Nat) (direction : Direction)
    (carriers : List String) :
    (single kind slot op racking stitch direction carriers).Mirrors
      (single kind (-slot) op racking' stitch direction.opposite carriers) :=
  ⟨rfl, (Table.insert_negated .empty slot op).symm, h, rfl, rfl, rfl, rfl, rfl, rfl⟩

theorem isAt_single {slot : Int} (h : slot.natAbs ≤ 2 ^ 30) (kind : PassKind) (op : SlotOp)
    (racking : Float) (stitch : Nat) (direction : Direction) (carriers : List String) :
    (single kind slot op racking stitch direction carriers).IsAt slot :=
  ⟨h, op, rfl⟩

theorem IsAt.kickFor {p : Pass} {slot : Int} (h : p.IsAt slot) (q : Pass) (name : String) :
    (q.kickFor slot name).IsAt slot :=
  ⟨h.1, .missFront, rfl⟩

namespace Mirrors

variable {p p' q q' : Pass}

theorem isAt (h : p.Mirrors p') {slot : Int} (hp : p.IsAt slot) : p'.IsAt (-slot) := by
  obtain ⟨hslot, op, hslots⟩ := hp
  refine ⟨by rwa [Int.natAbs_neg], op, ?_⟩
  rw [h.slots, hslots, Table.insert_negated, Table.negated_empty]

theorem validate (h : p.Mirrors p') : p'.validate = p.validate := by
  unfold Pass.validate flaw?
  rw [h.kind, h.carriers, h.hook, h.gripper]

theorem isClosed (h : p.Mirrors p') : p'.isClosed = p.isClosed := by
  unfold Pass.isClosed
  rw [h.hook, h.gripper]

theorem bringsIn (h : p.Mirrors p') : p'.bringsIn = p.bringsIn := by
  unfold Pass.bringsIn
  rw [h.hook, h.gripper]

theorem agrees (hp : p.Mirrors p') (hq : q.Mirrors q') : p'.agrees q' = p.agrees q := by
  unfold Pass.agrees
  rw [hp.kick, hq.kick, hp.kind, hq.kind, hp.racking.beq_eq hq.racking, hp.stitch, hq.stitch,
    hp.direction, hq.direction, hp.carriers, hq.carriers]
  simp only [Direction.opposite_inj]

/-- A pass joins another if its image joins the image of that. -/
theorem absorb? (hp : p.Mirrors p') (hq : q.Mirrors q') {slot : Int} (hslot : q.IsAt slot) :
    Option.Rel Mirrors (p.absorb? q) (p'.absorb? q') := by
  obtain ⟨-, op, hslots⟩ := hslot
  have hslots' : q'.slots = Table.empty.insert (-slot) op := by
    rw [hq.slots, hslots, Table.insert_negated, Table.negated_empty]
  have honly : ∀ (direction : Direction) (slots : Table Int SlotOp) (slot : Int),
      addSlots? direction slots (Table.empty.insert slot op).entries =
        addSlot? direction slots slot op := by
    intro direction slots slot
    show (addSlot? direction slots slot op).bind some = _
    cases addSlot? direction slots slot op <;> rfl
  unfold Pass.absorb?
  rw [hp.isClosed, hq.bringsIn, hp.agrees hq, hp.hook, hq.hook, hp.gripper, hq.gripper, hslots,
    hslots', honly, honly, hp.direction, hp.slots, addSlot?_negated]
  split
  · exact .none
  · cases addSlot? p.direction p.slots slot op with
    | none => exact .none
    | some slots =>
      exact .some ⟨hp.kind, rfl, hp.racking, hp.stitch, rfl, hp.carriers, rfl, rfl, hp.kick⟩

theorem kickFor (h : p.Mirrors p') (slot : Int) (name : String) :
    (p.kickFor slot name).Mirrors (p'.kickFor (-slot) name) := by
  have hkick := mirrors_single h.racking .knitTuck slot .missFront p.stitch p.direction.opposite
    [name]
  unfold Pass.kickFor
  rw [h.stitch, h.direction]
  exact ⟨hkick.kind, hkick.slots, hkick.racking, rfl, rfl, rfl, rfl, rfl, rfl⟩

end Mirrors

end Pass

/-! ## Schedules -/

/-- The images of the same passes. -/
structure Schedule.Mirrors (s s' : Schedule) : Prop where
  closed : List.Forall₂ Pass.Mirrors s.closed s'.closed
  openPass : Option.Rel Pass.Mirrors s.openPass s'.openPass

namespace Schedule.Mirrors

variable {s s' : Schedule}

theorem empty : Schedule.empty.Mirrors .empty := ⟨.nil, .none⟩

theorem passes (h : s.Mirrors s') : List.Forall₂ Pass.Mirrors s.passes s'.passes := by
  obtain ⟨closed, openPass⟩ := s
  obtain ⟨closed', openPass'⟩ := s'
  obtain ⟨hclosed, hopen⟩ := h
  refine List.rel_append hclosed ?_
  cases hopen with
  | none => exact .nil
  | some hp => exact .cons hp .nil

theorem append (h : s.Mirrors s') {p p' : Pass} (hp : p.Mirrors p') {slot : Int}
    (hslot : p.IsAt slot) : (s.append p).1.Mirrors (s'.append p').1 := by
  obtain ⟨closed, openPass⟩ := s
  obtain ⟨closed', openPass'⟩ := s'
  obtain ⟨hclosed, hopen⟩ := h
  cases hopen with
  | none => exact ⟨hclosed, .some hp⟩
  | @some last last' hlast =>
    have hjoined := hlast.absorb? hp hslot
    unfold Schedule.append
    dsimp only at hclosed ⊢
    generalize last.absorb? p = joined at hjoined
    generalize last'.absorb? p' = joined' at hjoined
    cases hjoined with
    | none => exact ⟨List.rel_append hclosed (.cons hlast .nil), .some hp⟩
    | some hjoined => exact ⟨hclosed, .some hjoined⟩

theorem takeOut (h : s.Mirrors s') (names : List String) (withHook : Bool) :
    (s.takeOut names withHook).1.Mirrors (s'.takeOut names withHook).1 := by
  obtain ⟨closed, openPass⟩ := s
  obtain ⟨closed', openPass'⟩ := s'
  obtain ⟨hclosed, hopen⟩ := h
  cases hopen with
  | none => exact ⟨hclosed, .none⟩
  | @some last last' hlast =>
    unfold Schedule.takeOut
    dsimp only at hclosed ⊢
    rw [hlast.carriers, hlast.gripper, hlast.hook]
    split
    · exact ⟨hclosed, .some hlast⟩
    · exact ⟨hclosed, .some ⟨hlast.kind, hlast.slots, hlast.racking, hlast.stitch,
        hlast.direction, rfl, rfl, rfl, hlast.kick⟩⟩

theorem release (h : s.Mirrors s') : s.release.1.Mirrors s'.release.1 := by
  obtain ⟨closed, openPass⟩ := s
  obtain ⟨closed', openPass'⟩ := s'
  obtain ⟨hclosed, hopen⟩ := h
  cases hopen with
  | none => exact ⟨hclosed, .none⟩
  | @some last last' hlast =>
    unfold Schedule.release
    dsimp only at hclosed ⊢
    rw [hlast.carriers, hlast.hook]
    split
    · exact ⟨hclosed, .some ⟨hlast.kind, hlast.slots, hlast.racking, hlast.stitch,
        hlast.direction, rfl, rfl, hlast.gripper, hlast.kick⟩⟩
    · exact ⟨hclosed, .some hlast⟩

end Schedule.Mirrors

/-! ## Kicks -/

/-- The same carrier is in the way, at the image of the slot. -/
def Blocker.Mirrors (b b' : Blocker) : Prop := b'.name = b.name ∧ b'.slot = -b.slot

/-- What is in the way of a pass is in the way of its image, in the order of the lanes. -/
theorem Pass.Mirrors.blockers {p p' : Pass} (hp : p.Mirrors p') {slot : Int} (hslot : p.IsAt slot)
    {t : Carriers} (ht : t.InRange) {racking racking' : Float}
    (h : Racking.Mirrors racking racking') (settled : List String) :
    List.Forall₂ Blocker.Mirrors (p.blockers t racking settled)
      (p'.blockers t.mirror racking' settled) := by
  unfold Pass.blockers
  rw [hslot.onlySlot?, (hp.isAt hslot).onlySlot?, hp.carriers, Carriers.active_mirror]
  dsimp only
  split
  · exact .nil
  · have hcarriers : List.Forall₂ (fun c c' => c' = c.mirror ∧ c.InRange)
        (t.active.filter fun c => !settled.contains c.name)
        ((t.active.map Carrier.mirror).filter fun c => !settled.contains c.name) := by
      rw [List.filter_map, List.forall₂_map_right_iff]
      refine List.forall₂_same.2 ?_
      intro c hc
      exact ⟨rfl, ht c (List.mem_mergeSort.1 (List.mem_of_mem_filter hc))⟩
    refine List.rel_filterMap ?_ hcarriers
    rintro c _ ⟨rfl, hc⟩
    show Option.Rel _ (c.last.bind _) ((c.last.map LastStitch.mirror).bind _)
    cases hlast : c.last with
    | none => exact .none
    | some last =>
      obtain ⟨hnear, hreach⟩ := hc last hlast
      obtain ⟨place, -, hparked, hparked'⟩ := LastStitch.parkedSlot_mirror h hnear
      show Option.Rel _ (if inLandingZone _ _ _ _ then _ else _)
        (if inLandingZone _ _ _ (Float.ofInt last.stoppingDistance) then _ else _)
      rw [hp.direction, inLandingZone_mirror p.direction hslot.1 hreach hparked hparked']
      split
      · exact .some ⟨rfl, rfl⟩
      · exact .none

/-- The same scheduling, of the images of the passes. -/
structure Submission.Mirrors (s s' : Submission) : Prop where
  schedule : s.schedule.Mirrors s'.schedule
  carriers : s'.carriers = s.carriers.mirror
  inRange : s.carriers.InRange
  settled : s'.settled = s.settled
  kicks : s'.kicks = s.kicks

namespace Submission.Mirrors

variable {s s' : Submission} {p p' : Pass} {slot : Int}

theorem emit (h : s.Mirrors s') (hp : p.Mirrors p') (hslot : p.IsAt slot) :
    (s.emit p).Mirrors (s'.emit p') := by
  have hmoved : (s'.carriers.afterKick p') = (s.carriers.afterKick p).mirror := by
    rw [Carriers.afterKick_eq hslot.onlySlot?, Carriers.afterKick_eq (hp.isAt hslot).onlySlot?,
      hp.carriers, hp.direction, h.carriers, Carriers.mirror_kickAll]
  have hrange : (s.carriers.afterKick p).InRange := by
    rw [Carriers.afterKick_eq hslot.onlySlot?]
    exact h.inRange.kickAll _ hslot.1 _
  constructor
  · exact h.schedule.append hp hslot
  · unfold Submission.emit
    dsimp only
    rw [hp.kick, hmoved, h.carriers]
    split <;> rfl
  · unfold Submission.emit
    dsimp only
    split
    · exact hrange
    · exact h.inRange
  · exact h.settled
  · unfold Submission.emit
    dsimp only
    rw [hp.kick, h.kicks]

theorem settle (h : s.Mirrors s') {blockers blockers' : List Blocker}
    (hb : List.Forall₂ Blocker.Mirrors blockers blockers') :
    (s.settle blockers).Mirrors (s'.settle blockers') := by
  have hnames : blockers'.map (·.name) = blockers.map (·.name) := by
    induction hb with
    | nil => rfl
    | cons hname _ ih => rw [List.map_cons, List.map_cons, hname.1, ih]
  refine ⟨h.schedule, h.carriers, h.inRange, ?_, h.kicks⟩
  unfold Submission.settle
  rw [h.settled, hnames]

/-- Kicks are resolved as in the mirror, however deep they are nested. -/
theorem resolve {racking racking' : Float} (hr : Racking.Mirrors racking racking') (depth : Nat)
    (h : s.Mirrors s') (hp : p.Mirrors p') (hslot : p.IsAt slot) :
    (Submission.resolve racking depth s p).Mirrors (Submission.resolve racking' depth s' p') := by
  induction depth generalizing s s' p p' with
  | zero => exact h.emit hp hslot
  | succ depth ih =>
    have hblockers := hp.blockers hslot h.inRange hr s.settled
    have hslots : ∀ b ∈ p.blockers s.carriers racking s.settled, b.slot = slot := by
      intro b hb
      have honly := (Pass.onlySlot?_of_mem_blockers hb).2
      rw [hslot.onlySlot?] at honly
      exact (Option.some.inj honly).symm
    unfold Submission.resolve
    rw [h.carriers, h.settled]
    dsimp only
    have hsettled := h.settle hblockers
    generalize p.blockers s.carriers racking s.settled = blockers at hblockers hslots hsettled
    generalize p'.blockers s.carriers.mirror racking' s.settled = blockers' at hblockers hsettled
    refine Mirrors.emit ?_ hp hslot
    generalize s.settle blockers = u at hsettled
    generalize s'.settle blockers' = u' at hsettled
    -- One kick after the other, each with what it has to kick itself.
    induction hblockers generalizing u u' with
    | nil => exact hsettled
    | @cons b b' rest rest' hb _ ihRest =>
      obtain ⟨hb', hrest⟩ := List.forall_mem_cons.1 hslots
      refine ihRest hrest _ _ ?_
      show Mirrors (Submission.resolve racking depth u (p.kickFor b.slot b.name))
        (Submission.resolve racking' depth u' (p'.kickFor b'.slot b'.name))
      rw [hb.1, hb.2]
      refine ih hsettled (hp.kickFor b.slot b.name) ?_
      rw [hb']
      exact hslot.kickFor p b.name

end Submission.Mirrors

/-- A pass is refused for the same reason as its image, or both are scheduled. -/
theorem Schedule.Mirrors.submit {s s' : Schedule} (h : s.Mirrors s') {t : Carriers}
    (ht : t.InRange) {racking racking' : Float} (hr : Racking.Mirrors racking racking')
    {p p' : Pass} (hp : p.Mirrors p') {slot : Int} (hslot : p.IsAt slot) :
    (∃ e, s.submit t racking p = .error e ∧ s'.submit t.mirror racking' p' = .error e) ∨
      ∃ u u', s.submit t racking p = .ok u ∧ s'.submit t.mirror racking' p' = .ok u' ∧
        u.Mirrors u' := by
  unfold Schedule.submit
  rw [hp.validate, hp.carriers, Carriers.length_members_mirror]
  cases p.validate with
  | error e => exact .inl ⟨e, rfl, rfl⟩
  | ok _ =>
    refine .inr ⟨_, _, rfl, rfl, ?_⟩
    exact Submission.Mirrors.resolve hr _ ⟨h, rfl, ht, rfl, rfl⟩ hp hslot

end Knitting
