import Knitting.Proofs.Machine.Report

set_option autoImplicit false

/-! # The fabric and the schedule do not interfere

A machine keeps two things beside its carriers: the fabric, which is drawn to the sizes of the
configuration, and the schedule, which is made with its stitch number and stopping distance. Neither
depends on the settings of the other, and no report depends on any of them
(`Machine.schedule_fabric_independent`). Two machines with other settings for their passes stitch
the same fabric as long as they declare the same carriers (`Machine.SameFabric`), and two that draw
their stitches otherwise schedule the same passes as long as they occupy the same needles
(`Machine.SameControl`). -/

namespace Knitting

/-- The calls of an instruction depend on what is declared. -/
theorem Instruction.calls_congr {t t' : Carriers} (h : t.declared = t'.declared) (i : Instruction) :
    i.calls t = i.calls t' := by
  have hlane : t.lane? = t'.lane? := by
    funext name
    rw [Carriers.lane?, Carriers.lane?, h]
  unfold calls stitchCall
  rw [hlane, h]

namespace Machine

variable {α : Type} {m m' : Machine α}

/-! ## The same fabric -/

/-- Two machines whose passes may differ, but not their fabrics. -/
structure SameFabric (m m' : Machine α) : Prop where
  alike : m.Alike True m'
  fabric : m.fabric = m'.fabric

theorem SameFabric.declared (h : m.SameFabric m') : m.carriers.declared = m'.carriers.declared :=
  h.alike.carriers.declared (.inl trivial)

/-! ## The same control -/

/-- Two machines whose fabrics may differ, but nothing that is scheduled. -/
structure SameControl (m m' : Machine α) : Prop where
  carriers : m.carriers = m'.carriers
  hook : m.hook = m'.hook
  racking : m.racking = m'.racking
  schedule : m.schedule = m'.schedule
  kicks : m.kicks = m'.kicks
  stitchNumber : m.config.stitchNumber = m'.config.stitchNumber
  stoppingDistance : m.config.stoppingDistance = m'.config.stoppingDistance

namespace SameControl

theorem withCarriers (h : m.SameControl m') (t : Carriers) :
    { m with carriers := t }.SameControl { m' with carriers := t } :=
  ⟨rfl, h.hook, h.racking, h.schedule, h.kicks, h.stitchNumber, h.stoppingDistance⟩

theorem withFabric (h : m.SameControl m') (f f' : Fabric α) :
    { m with fabric := f }.SameControl { m' with fabric := f' } :=
  ⟨h.carriers, h.hook, h.racking, h.schedule, h.kicks, h.stitchNumber, h.stoppingDistance⟩

theorem singlePass (h : m.SameControl m') (kind : PassKind) (slot : Int) (op : SlotOp)
    (direction : Direction) (names : List String) :
    m.singlePass kind slot op direction names = m'.singlePass kind slot op direction names := by
  rw [Machine.singlePass, Machine.singlePass, h.racking, h.stitchNumber]

theorem bringIn (h : m.SameControl m') (kind : InKind) (names : List String) :
    (m.bringIn kind names).machine.SameControl (m'.bringIn kind names).machine := by
  unfold Machine.bringIn
  split
  · exact h
  · rw [h.carriers]
    cases m'.carriers.bringIn kind names with
    | error e => exact h
    | ok t =>
      cases kind with
      | plain => exact h.withCarriers t
      | hook =>
        dsimp only
        rw [h.hook]
        have hin := h.withCarriers t
        cases m'.hook.hold names with
        | error e =>
          exact ⟨rfl, rfl, hin.racking, hin.schedule, hin.kicks, hin.stitchNumber,
            hin.stoppingDistance⟩
        | ok hook =>
          exact ⟨rfl, rfl, hin.racking, hin.schedule, hin.kicks, hin.stitchNumber,
            hin.stoppingDistance⟩

theorem releaseHook (h : m.SameControl m') (names : List String) :
    (m.releaseHook names).machine.SameControl (m'.releaseHook names).machine := by
  unfold Machine.releaseHook
  rw [h.hook, h.schedule]
  cases m'.hook.release names with
  | error e => exact h
  | ok hook =>
    exact ⟨h.carriers, rfl, h.racking, rfl, h.kicks, h.stitchNumber, h.stoppingDistance⟩

theorem takeOut (h : m.SameControl m') (withHook : Bool) (names : List String) :
    (m.takeOut withHook names).machine.SameControl (m'.takeOut withHook names).machine := by
  unfold Machine.takeOut
  rw [h.carriers, h.hook, h.schedule]
  split
  · exact h
  · split
    · exact h
    · split
      · exact h
      · exact ⟨rfl, rfl, h.racking, rfl, h.kicks, h.stitchNumber, h.stoppingDistance⟩

theorem submit (h : m.SameControl m') (p : Pass) (w w' : Option Warning)
    (events events' : List Event) :
    (m.submit p w events).machine.SameControl (m'.submit p w' events').machine := by
  unfold Machine.submit
  rw [h.schedule, h.carriers, h.racking, h.kicks]
  cases m'.schedule.submit m'.carriers m'.racking p with
  | error e => exact h
  | ok r => exact ⟨rfl, h.hook, rfl, rfl, rfl, h.stitchNumber, h.stoppingDistance⟩

theorem withYarn (h : m.SameControl m') (leader : String) (names : List String)
    (direction : Direction) (n : Needle) (p : Pass)
    (work work' : Fabric α → Lane → Fabric α × Option Warning × List Event) :
    (m.withYarn leader names direction n p work).machine.SameControl
      (m'.withYarn leader names direction n p work').machine := by
  unfold Machine.withYarn
  rw [h.carriers]
  obtain ⟨t, _ | q⟩ := use m'.carriers names p
  · exact h.withCarriers t
  · dsimp only
    cases t.lane? leader with
    | none => exact h.withCarriers t
    | some lane =>
      dsimp only
      refine submit ?_ _ _ _ _ _
      unfold Machine.park
      rw [h.stoppingDistance]
      exact (h.withFabric _ _).withCarriers _

theorem stitchBare (h : m.SameControl m') (hneedles : m.fabric.SameNeedles m'.fabric)
    (op : StitchOp) (n : Needle) (slot : Int) :
    (m.stitchBare op n slot).machine.SameControl (m'.stitchBare op n slot).machine := by
  unfold Machine.stitchBare
  cases op with
  | miss => exact h
  | tuck =>
    dsimp only
    rw [h.singlePass]
    exact h.submit ..
  | knit =>
    dsimp only
    rw [h.singlePass]
    cases hdrop : m.fabric.drop n with
    | error w =>
      have hfree := (Fabric.drop_warns_iff _ _).1 hdrop
      rw [hneedles, ← Fabric.drop_warns_iff] at hfree
      rw [hfree]
      exact h
    | ok dropped =>
      cases hdrop' : m'.fabric.drop n with
      | error w =>
        have hfree := (Fabric.drop_warns_iff _ _).1 hdrop'
        rw [← hneedles, ← Fabric.drop_warns_iff, hdrop] at hfree
        simp at hfree
      | ok dropped' => exact (h.withFabric _ _).submit ..

variable [Scalar α]

/-- Transfers from occupied needles are never refused, those from free ones always. -/
theorem splitBare (h : m.SameControl m') (hm : m.Sound) (hm' : m'.Sound)
    (hneedles : m.fabric.SameNeedles m'.fabric) (source target : Needle) (p : Pass) :
    (m.splitBare source target p).machine.SameControl
      (m'.splitBare source target p).machine := by
  unfold Machine.splitBare
  cases hmoved : m.fabric.transfer source target m.carriers.declared.length with
  | error w =>
    rw [hm.fabric.transfer_warns_iff, hneedles] at hmoved
    rw [(hm'.fabric.transfer_warns_iff ..).2 hmoved]
    exact h
  | ok moved =>
    cases hmoved' : m'.fabric.transfer source target m'.carriers.declared.length with
    | error w =>
      rw [hm'.fabric.transfer_warns_iff, ← hneedles] at hmoved'
      rw [(hm.fabric.transfer_warns_iff ..).2 hmoved'] at hmoved
      simp at hmoved
    | ok moved' => exact (h.withFabric _ _).submit ..

theorem stitch (h : m.SameControl m') (hneedles : m.fabric.SameNeedles m'.fabric) (op : StitchOp)
    (direction : Direction) (n : Needle) (names : List String) :
    (m.stitch op direction n names).machine.SameControl
      (m'.stitch op direction n names).machine := by
  rw [stitch_eq, stitch_eq, h.racking]
  cases stitchSlot n m'.racking with
  | error e => exact h
  | ok slot =>
    cases names with
    | nil => exact h.stitchBare hneedles op n slot
    | cons leader rest =>
      dsimp only
      rw [h.singlePass]
      exact h.withYarn ..

theorem split (h : m.SameControl m') (hm : m.Sound) (hm' : m'.Sound)
    (hneedles : m.fabric.SameNeedles m'.fabric) (direction : Direction) (source target : Needle)
    (names : List String) :
    (m.split direction source target names).machine.SameControl
      (m'.split direction source target names).machine := by
  rw [split_eq, split_eq, h.racking]
  cases splitPlace source target m'.racking (!names.isEmpty) with
  | error e => exact h
  | ok place =>
    cases names with
    | nil =>
      dsimp only
      rw [h.singlePass]
      exact h.splitBare hm hm' hneedles ..
    | cons leader rest =>
      dsimp only
      rw [h.singlePass]
      exact h.withYarn ..

theorem execute (h : m.SameControl m') (hm : m.Sound) (hm' : m'.Sound)
    (hneedles : m.fabric.SameNeedles m'.fabric) (i : Instruction) :
    (m.execute i).machine.SameControl (m'.execute i).machine := by
  cases i with
  | bringIn kind names => exact h.bringIn kind names
  | releaseHook names => exact h.releaseHook names
  | takeOut withHook names => exact h.takeOut withHook names
  | stitch op direction n names => exact h.stitch hneedles op direction n names
  | split direction source target names =>
    exact h.split hm hm' hneedles direction source target names
  | rack racking =>
    exact ⟨h.carriers, h.hook, rfl, h.schedule, h.kicks, h.stitchNumber, h.stoppingDistance⟩
  | pause => exact h
  | extension op => exact h
  | unsupported op => exact h

end SameControl

/-! ## Sessions -/

variable [Scalar α]

/-- Alike machines report the same throughout a session and are alike at its end. -/
theorem Alike.session {lanes : Prop} (h : m.Alike lanes m') (hm : m.Sound) (hm' : m'.Sound)
    (is : List Instruction) :
    m.outcomes is = m'.outcomes is ∧ (m.after is).Alike lanes (m'.after is) := by
  induction is generalizing m m' with
  | nil => exact ⟨rfl, h⟩
  | cons i is ih =>
    obtain ⟨houtcome, hnext⟩ := h.execute hm hm' i
    obtain ⟨houtcomes, hafter⟩ := ih hnext (hm.execute i) (hm'.execute i)
    exact ⟨by rw [outcomes_cons, outcomes_cons, houtcome, houtcomes], hafter⟩

theorem SameFabric.execute (h : m.SameFabric m') (hm : m.Sound) (hm' : m'.Sound) (i : Instruction) :
    (m.execute i).machine.SameFabric (m'.execute i).machine := by
  obtain ⟨houtcome, halike⟩ := h.alike.execute hm hm' i
  refine ⟨halike, ?_⟩
  rw [fabric_execute, fabric_execute, stepOperations, stepOperations, houtcome,
    i.calls_congr h.declared, h.fabric]

theorem SameFabric.session (h : m.SameFabric m') (hm : m.Sound) (hm' : m'.Sound)
    (is : List Instruction) : (m.after is).SameFabric (m'.after is) := by
  induction is generalizing m m' with
  | nil => exact h
  | cons i is ih => exact ih (h.execute hm hm' i) (hm.execute i) (hm'.execute i)

theorem SameControl.session (h : m.SameControl m') (hm : m.Sound) (hm' : m'.Sound)
    (hneedles : m.fabric.SameNeedles m'.fabric) (is : List Instruction) :
    (m.after is).SameControl (m'.after is) := by
  induction is generalizing m m' with
  | nil => exact h
  | cons i is ih =>
    have halike : m.Alike True m' := ⟨h.carriers ▸ .refl _, h.hook, h.racking, hneedles⟩
    exact ih (h.execute hm hm' hneedles i) (hm.execute i) (hm'.execute i)
      (halike.execute hm hm' i).2.needles

/-- The settings of the passes do not show in the fabric, and the sizes of the stitches do not show
in the schedule. Sessions with other stitch numbers and stopping distances report the same at every
step and end with the same fabric and the same carriers declared; sessions with other sizes report
the same and end with the same passes, kicks and carriers, these in the same places and waiting for
the same. -/
theorem schedule_fabric_independent (g g' : Geometry α) (stitchNumber stitchNumber' : Nat)
    (stoppingDistance stoppingDistance' : Int) (maxVersion : Nat) (is : List Instruction) :
    let m := initial ⟨g, stitchNumber, stoppingDistance, maxVersion⟩
    let paced := initial ⟨g, stitchNumber', stoppingDistance', maxVersion⟩
    let resized := initial ⟨g', stitchNumber, stoppingDistance, maxVersion⟩
    (paced.outcomes is = m.outcomes is ∧ (paced.after is).fabric = (m.after is).fabric ∧
        (paced.after is).carriers.declared = (m.after is).carriers.declared) ∧
      resized.outcomes is = m.outcomes is ∧ (resized.after is).schedule = (m.after is).schedule ∧
        (resized.after is).kicks = (m.after is).kicks ∧
        (resized.after is).carriers = (m.after is).carriers ∧
        (resized.after is).hook = (m.after is).hook ∧
        (resized.after is).racking = (m.after is).racking := by
  intro m paced resized
  have hm : m.Sound := sound_initial _
  constructor
  · have hpaced : paced.Sound := sound_initial _
    have hsame : paced.SameFabric m := ⟨alike_initial _ _, rfl⟩
    have hafter := hsame.session hpaced hm is
    exact ⟨(hsame.alike.session hpaced hm is).1, hafter.fabric, hafter.declared⟩
  · have hresized : resized.Sound := sound_initial _
    have halike : resized.Alike True m := alike_initial _ _
    have hsame : resized.SameControl m := ⟨rfl, rfl, rfl, rfl, rfl, rfl, rfl⟩
    have hafter := hsame.session hresized hm halike.needles is
    exact ⟨(halike.session hresized hm is).1, hafter.schedule, hafter.kicks, hafter.carriers,
      hafter.hook, hafter.racking⟩

end Machine

end Knitting
