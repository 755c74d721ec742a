import Knitting.Proofs.Machine.Failure
import Knitting.Proofs.Machine.Kicks
import Knitting.Proofs.Pass.Blocks

set_option autoImplicit false

/-! # Every pass can be carried out

A pass is checked once, when it is scheduled. What the schedule makes of it later is not: it joins
passes, which mixes their actions of hook and gripper, and ties more actions to the open one. Still
all passes of a reachable machine can be carried out (`Machine.passes_valid`). What holds them
together is that the hook never brings in or takes out without the gripper, and that kicks have no
actions (`Pass.Proper`). -/

namespace Knitting

/-! ## Proper passes -/

/-- A pass that can be carried out, without actions if it is a kick. -/
structure Pass.Proper (p : Pass) : Prop where
  transfer : p.kind.isTransfer = true → p.carriers = []
  idle : p.kind = .knitTuck → p.carriers = [] → p.hook = none ∧ p.gripper = none
  hookIn : p.hook = some .bringIn → p.gripper = some .bringIn
  hookOut : p.hook = some .takeOut → p.gripper = some .takeOut
  kick : p.kick = true → p.hook = none ∧ p.gripper = none

namespace Pass

variable {p q joined : Pass}

/-- A pass without a flaw has yarn where it needs some and none where it must not, and its hook
never brings in or takes out alone. -/
theorem flaw?_eq_none_iff :
    p.flaw? = none ↔ (p.kind.isTransfer = true → p.carriers = []) ∧
      (p.kind = .knitTuck → p.carriers = [] → p.hook = none ∧ p.gripper = none) ∧
      (p.hook = some .bringIn → p.gripper = some .bringIn) ∧
      (p.hook = some .takeOut → p.gripper = some .takeOut) := by
  have hcheck : ∀ (b : Prop) [Decidable b] (flaw : PassFlaw) (rest : Option PassFlaw),
      (if b then some flaw else rest) = none ↔ ¬b ∧ rest = none := by
    intro b _ flaw rest
    split <;> simp [*]
  simp only [flaw?, hcheck, and_true]
  refine and_congr ?_ (and_congr ?_ (and_congr ?_ ?_))
  · simp
  · cases p.hook <;> cases p.gripper <;> simp
  · simp
  · simp

theorem proper_iff :
    p.Proper ↔ p.validate = .ok () ∧ (p.kick = true → p.hook = none ∧ p.gripper = none) := by
  rw [validate_eq_ok_iff, flaw?_eq_none_iff]
  constructor
  · intro h
    exact ⟨⟨h.transfer, h.idle, h.hookIn, h.hookOut⟩, h.kick⟩
  · rintro ⟨⟨htransfer, hidle, hin, hout⟩, hkick⟩
    exact ⟨htransfer, hidle, hin, hout, hkick⟩

theorem proper_kickTo (p : Pass) (slot : Int) (direction : Direction) (name : String) :
    (p.kickTo slot direction name).Proper :=
  ⟨nofun, fun _ _ => ⟨rfl, rfl⟩, nofun, nofun, fun _ => ⟨rfl, rfl⟩⟩

/-- Of two passes that join, the first does nothing at its end and the second nothing at its start.
What the hook and the gripper do for the two they do for the joined pass. -/
theorem actions_of_absorb? (h : p.absorb? q = some joined) :
    p.isClosed = false ∧ q.bringsIn = false ∧
      (∀ a, joined.hook = some a ↔ p.hook = some a ∨ q.hook = some a) ∧
      ∀ a, joined.gripper = some a ↔ p.gripper = some a ∨ q.gripper = some a := by
  have hor : ∀ {β : Type} {o o' : Option β} (a : β), (o.isSome && o'.isSome) = false →
      ((o <|> o') = some a ↔ o = some a ∨ o' = some a) := by
    intro β o o' a hone
    cases o <;> cases o' <;> simp_all
  unfold absorb? at h
  split at h
  · simp at h
  · next hfree =>
    obtain ⟨slots, -, rfl⟩ := Option.map_eq_some_iff.1 h
    simp only [Bool.or_eq_true, not_or, Bool.not_eq_true] at hfree
    obtain ⟨⟨⟨⟨hclosed, hbrings⟩, -⟩, hhook⟩, hgripper⟩ := hfree
    exact ⟨hclosed, hbrings, fun a => hor a hhook, fun a => hor a hgripper⟩

/-- What the hook does at the start of a joined pass it does for the first of the two, and what it
does at the end for the second, and there the gripper does the same. -/
theorem Proper.absorb (hp : p.Proper) (hq : q.Proper) (h : p.absorb? q = some joined) :
    joined.Proper := by
  obtain ⟨hclosed, hbrings, hhook, hgripper⟩ := actions_of_absorb? h
  obtain ⟨-, hagrees, slots, -, hjoined⟩ := absorb?_eq_some h
  simp only [agrees, Bool.and_eq_true, decide_eq_true_eq] at hagrees
  obtain ⟨⟨⟨⟨⟨hkick, hkind⟩, -⟩, -⟩, -⟩, hcarriers⟩ := hagrees
  simp only [isClosed, Bool.or_eq_false_iff, decide_eq_false_iff_not] at hclosed
  simp only [bringsIn, Bool.or_eq_false_iff, decide_eq_false_iff_not] at hbrings
  have hnone : p.hook = none ∧ p.gripper = none → q.hook = none ∧ q.gripper = none →
      joined.hook = none ∧ joined.gripper = none := by
    rintro ⟨hp₁, hp₂⟩ ⟨hq₁, hq₂⟩
    simp [hjoined, hp₁, hp₂, hq₁, hq₂]
  refine ⟨?_, ?_, ?_, ?_, ?_⟩
  · rw [hjoined]
    exact hp.transfer
  · rw [hjoined]
    intro hidle hyarn
    rw [← hjoined]
    exact hnone (hp.idle hidle hyarn) (hq.idle (hkind ▸ hidle) (hcarriers ▸ hyarn))
  · intro hin
    have hp₁ := ((hhook _).1 hin).resolve_right hbrings.1
    exact (hgripper _).2 (.inl (hp.hookIn hp₁))
  · intro hout
    have hq₁ := ((hhook _).1 hout).resolve_left hclosed.1.2
    exact (hgripper _).2 (.inr (hq.hookOut hq₁))
  · intro hk
    rw [hjoined] at hk
    exact hnone (hp.kick hk) (hq.kick (hkick ▸ hk))

end Pass

/-! ## Proper schedules -/

namespace Schedule

variable {s : Schedule} {p : Pass}

theorem mem_passes_iff : p ∈ s.passes ↔ p ∈ s.closed ∨ p ∈ s.openPass := by
  simp [Schedule.passes, Option.mem_toList]

/-- All passes are proper. -/
def Proper (s : Schedule) : Prop := ∀ p ∈ s.passes, p.Proper

theorem Proper.append (hs : s.Proper) (hp : p.Proper) : (s.append p).1.Proper := by
  intro q hq
  rw [mem_passes_iff] at hq
  unfold Schedule.append at hq
  cases hopen : s.openPass with
  | none =>
    rw [hopen] at hq
    rcases hq with hq | hq
    · exact hs q (mem_passes_iff.2 (.inl hq))
    · exact Option.some.inj hq ▸ hp
  | some last =>
    have hlast : last.Proper := hs last (mem_passes_iff.2 (.inr hopen))
    rw [hopen] at hq
    dsimp only at hq
    split at hq
    · next joined hjoin =>
      rcases hq with hq | hq
      · exact hs q (mem_passes_iff.2 (.inl hq))
      · exact Option.some.inj hq ▸ hlast.absorb hp hjoin
    · rcases hq with hq | hq
      · rcases List.mem_append.1 hq with hq | hq
        · exact hs q (mem_passes_iff.2 (.inl hq))
        · exact List.mem_singleton.1 hq ▸ hlast
      · exact Option.some.inj hq ▸ hp

theorem Proper.appendAll {ps : List Pass} (hs : s.Proper) (hps : ∀ p ∈ ps, p.Proper) :
    (s.appendAll ps).Proper :=
  List.foldlRecOn ps (fun s p => (s.append p).1) (motive := Proper) hs
    fun _ hs p hp => hs.append (hps p hp)

/-- Another open pass. -/
theorem Proper.reopen (hs : s.Proper) (hp : p.Proper) :
    Proper { s with openPass := some p } := by
  intro q hq
  rcases mem_passes_iff.1 hq with hq | hq
  · exact hs q (mem_passes_iff.2 (.inl hq))
  · exact Option.some.inj hq ▸ hp

/-- The hook lets go after a pass with yarn, for which it had nothing to do. -/
theorem Proper.release (hs : s.Proper) (hplain : s.EndsPlain) : s.release.1.Proper := by
  unfold Schedule.release
  cases hopen : s.openPass with
  | none => exact hs
  | some p =>
    have hp : p.Proper := hs p (mem_passes_iff.2 (.inr hopen))
    have hkick : p.kick = false := hplain p hopen
    dsimp only
    split
    · next hfree =>
      simp only [Bool.and_eq_true, Bool.not_eq_true', List.isEmpty_eq_false_iff] at hfree
      exact hs.reopen ⟨hp.transfer, fun _ hyarn => absurd hyarn hfree.2, nofun, nofun,
        fun hk => absurd hk (by simp [hkick])⟩
    · exact hs

/-- Carriers are taken out after the pass that used them, for which the gripper had nothing to do,
nor the hook if it is needed. -/
theorem Proper.takeOut {names : List String} (hs : s.Proper) (hplain : s.EndsPlain)
    (hnames : names ≠ []) (withHook : Bool) : (s.takeOut names withHook).1.Proper := by
  unfold Schedule.takeOut
  cases hopen : s.openPass with
  | none => exact hs
  | some p =>
    have hp : p.Proper := hs p (mem_passes_iff.2 (.inr hopen))
    have hkick : p.kick = false := hplain p hopen
    dsimp only
    split
    · exact hs
    · next hfree =>
      simp only [Bool.or_eq_true, not_or, Bool.and_eq_true, not_and, decide_eq_true_eq,
        Decidable.not_not, Bool.not_eq_true, Option.isSome_eq_false_iff,
        Option.isNone_iff_eq_none] at hfree
      obtain ⟨⟨rfl, hgripper⟩, hhook⟩ := hfree
      refine hs.reopen ⟨hp.transfer, fun _ hyarn => absurd hyarn hnames, ?_, fun _ => rfl,
        fun hk => absurd hk (by simp [hkick])⟩
      -- The hook brings nothing in, since the gripper does not.
      intro hin
      cases withHook with
      | true => simp at hin
      | false => simp [hp.hookIn hin] at hgripper

theorem Cascade.proper {carriers : Carriers} {racking : Float} {kicks : List Pass} {r : Submission}
    (h : s.Cascade carriers racking p kicks r) (hs : s.Proper) (hp : p.Proper) :
    r.schedule.Proper := by
  rw [h.emitted]
  refine hs.appendAll ?_
  intro k hk
  rcases List.mem_append.1 hk with hk | hk
  · obtain ⟨c, -, -, -, slot, direction, -, rfl⟩ := h.kick k hk
    exact p.proper_kickTo slot direction c.name
  · exact List.mem_singleton.1 hk ▸ hp

/-- A pass that is no kick is checked when it is scheduled. -/
theorem Proper.submit {carriers : Carriers} {racking : Float} {r : Submission} (hs : s.Proper)
    (hplain : s.EndsPlain) (hnames : (carriers.members.map (·.name)).Nodup) (hkick : p.kick = false)
    (hsubmit : s.submit carriers racking p = .ok r) : r.schedule.Proper := by
  have hvalid := validate_of_submit hsubmit
  obtain ⟨kicks, r', hsubmit', hcascade, -⟩ :=
    Schedule.exists_cascade hplain hnames hkick hvalid racking
  obtain rfl := Except.ok.inj (hsubmit.symm.trans hsubmit')
  exact hcascade.proper hs (Pass.proper_iff.2 ⟨hvalid, fun hk => absurd hk (by simp [hkick])⟩)

end Schedule

/-! ## Reachable machines -/

namespace Machine

variable {α : Type} {m m' : Machine α}

theorem kick_of_use {carriers t : Carriers} {names group : List String} {kind : PassKind}
    {slot : Int} {op : SlotOp} {direction : Direction} {p : Pass}
    (huse : use carriers names (m.singlePass kind slot op direction group) = (t, .ok p)) :
    p.kick = false := by
  obtain ⟨-, -, ⟨-, rfl⟩ | ⟨pending, -, -, rfl⟩⟩ := use_eq_ok_iff.1 huse <;> rfl

theorem Effect.proper {i : Instruction} (h : m.Effect i m')
    (hnames : (m.carriers.members.map (·.name)).Nodup) (hplain : m.schedule.EndsPlain)
    (hm : m.schedule.Proper) : m'.schedule.Proper := by
  cases h with
  | idle => exact hm
  | bringIn => exact hm
  | releaseHook => exact hm.release hplain
  | @takeOut withHook names hne => exact hm.takeOut hplain hne withHook
  | rack => exact hm
  | bare _ hsubmit => exact hm.submit hplain hnames rfl hsubmit
  | yarn _ _ huse hsubmit =>
    refine hm.submit hplain ?_ (kick_of_use huse) hsubmit
    rwa [Carriers.names_park, (use_eq_ok_iff.1 huse).2.1, names_takePending]

theorem not_failure_invalidPass {i : Instruction} {flaw : PassFlaw} :
    ¬m.Failure i (.invalidPass flaw) m' := by
  rintro ⟨he⟩
  exact he

variable [Scalar α] {config : Config α} {allowed : Instruction → Step α → Prop}

theorem Reachable.proper (h : Reachable config allowed m) : m.schedule.Proper := by
  induction h with
  | start => exact nofun
  | header h names ih => exact ih
  | @execute m h i hallowed ih =>
    rcases ends_execute m i with ⟨e, t, -, -, hm⟩ | ⟨w, -, heffect⟩
    · rw [hm]
      exact ih
    · exact heffect.proper h.nodup_names h.countsKicks.plain ih

/-- All passes of a session can be carried out, whatever failed on the way: the finished ones, the
open one, which is no kick, and so all that come out in the end. A kick has no actions of hook or
gripper. And no instruction fails for a pass that cannot be carried out. -/
theorem passes_valid (hm : Reachable config allowed m) :
    ((∀ p ∈ m.schedule.closed, p.validate = .ok ()) ∧
        ∀ p ∈ m.schedule.openPass, p.validate = .ok () ∧ p.kick = false) ∧
      (∀ warnings, ∀ p ∈ (m.output warnings).passes,
        p.validate = .ok () ∧ (p.kick = true → p.hook = none ∧ p.gripper = none)) ∧
      ∀ i flaw, (m.execute i).outcome ≠ .error (.invalidPass flaw) := by
  have hproper : ∀ p ∈ m.schedule.passes,
      p.validate = .ok () ∧ (p.kick = true → p.hook = none ∧ p.gripper = none) :=
    fun p hp => Pass.proper_iff.1 (hm.proper p hp)
  refine ⟨⟨?_, ?_⟩, fun _ => hproper, ?_⟩
  · intro p hp
    exact (hproper p (Schedule.mem_passes_iff.2 (.inl hp))).1
  · intro p hp
    exact ⟨(hproper p (Schedule.mem_passes_iff.2 (.inr hp))).1, hm.countsKicks.plain p hp⟩
  · intro i flaw herror
    exact not_failure_invalidPass (failsAs_execute m i _ herror)

/-- A group stitches first, once across and once back, before it is taken out with the hook. -/
theorem passes_valid_in_and_out :
    let is : List Instruction := [.bringIn .hook ["A"], .stitch .knit .right (.front 0) ["A"],
      .releaseHook ["A"], .stitch .knit .left (.front 0) ["A"], .takeOut true ["A"]]
    let m := (initial (Config.standard : Config Float32)).after is
    m.schedule.passes.map (fun p => (p.hook, p.gripper)) =
        [(some .bringIn, some .bringIn), (some .takeOut, some .takeOut)] ∧
      ∀ p ∈ m.schedule.passes, p.validate = .ok () := by
  intro is m
  have hdeclared : Carriers.empty.declareAll [] = .ok .empty := rfl
  have hm : Reachable (Config.standard : Config Float32) (fun _ _ => True) m :=
    .execute (.execute (.execute (.execute (.execute (.start hdeclared) trivial) trivial) trivial)
      trivial) trivial
  exact ⟨by decide +kernel, fun p hp => ((passes_valid hm).2.1 [] p hp).1⟩

end Machine

end Knitting
