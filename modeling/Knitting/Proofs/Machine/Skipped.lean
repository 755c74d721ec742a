import Knitting.Proofs.Machine.Report

set_option autoImplicit false

/-! # Skipped instructions

An instruction that warns was skipped: it leaves the machine as it found it. The one exception is a
split of an empty needle, which moves nothing but still knits (`Machine.skipped_unless_split`). What
an instruction warns of can be told beforehand (`Machine.warning?`), although a transfer finds out
from the loops of its needle that it is empty, and a drop only by clearing it. -/

namespace Knitting

namespace Machine

variable {α : Type} {m : Machine α}

/-- What an instruction warns of, unless it fails. -/
def warning? (m : Machine α) : Instruction → Option Warning
  | .stitch .knit _ n [] => if (m.fabric.heldAt n).isEmpty then some (.emptyDrop n) else none
  | .split _ source _ _ =>
    if (m.fabric.heldAt source).isEmpty then some (.emptyTransfer source) else none
  | .extension op => some (.extensionOperation op)
  | .unsupported op => some (.unsupportedOperation op)
  | _ => none

/-- Scheduling a pass adds no warning. -/
theorem warning_of_submit {p : Pass} {w w' : Option Warning} {events : List Event}
    (h : (m.submit p w events).outcome = .ok w') : w' = w := by
  unfold submit at h
  split at h
  · simp at h
  · simpa [eq_comm] using h

/-- A pass with yarn warns of what the work on its fabric warns of. -/
theorem warning_of_withYarn {leader : String} {names : List String} {direction : Direction}
    {n : Needle} {p : Pass} {work : Fabric α → Lane → Fabric α × Option Warning × List Event}
    {w : Option Warning} (h : (m.withYarn leader names direction n p work).outcome = .ok w) :
    ∃ lane, m.carriers.lane? leader = some lane ∧ w = (work m.fabric lane).2.1 ∧
      (m.withYarn leader names direction n p work).machine.fabric = (work m.fabric lane).1 := by
  obtain ⟨lane, hlane, hfabric⟩ := withYarn_fabric ⟨w, h⟩
  refine ⟨lane, hlane, ?_, hfabric⟩
  unfold withYarn at h
  split at h
  · simp [fail] at h
  · next t p' huse =>
    obtain ⟨-, rfl, -⟩ := use_eq_ok_iff.1 huse
    rw [lane?_takePending, hlane] at h
    exact warning_of_submit h

theorem warning_of_bringIn {kind : InKind} {names : List String} {w : Option Warning}
    (h : (m.bringIn kind names).outcome = .ok w) : w = none := by
  unfold bringIn at h
  grind [fail, done]

theorem warning_of_releaseHook {names : List String} {w : Option Warning}
    (h : (m.releaseHook names).outcome = .ok w) : w = none := by
  unfold releaseHook at h
  grind [fail, done]

theorem warning_of_takeOut {withHook : Bool} {names : List String} {w : Option Warning}
    (h : (m.takeOut withHook names).outcome = .ok w) : w = none := by
  unfold takeOut at h
  grind [fail, done]

variable [Scalar α]

/-- What a machine is after an instruction that warned: what it was before, but for the stitch that
a split makes all the same. -/
def SkippedTo (m : Machine α) (i : Instruction) (w : Warning) (m' : Machine α) : Prop :=
  match i with
  | .split direction source _ (leader :: _) =>
    w = .emptyTransfer source ∧ ∃ lane, m.carriers.lane? leader = some lane ∧
      m'.fabric = (m.fabric.knit direction source lane).1
  | _ => m' = m

theorem stitch_skipped {op : StitchOp} {direction : Direction} {n : Needle} {names : List String}
    {w? : Option Warning} (h : (m.stitch op direction n names).outcome = .ok w?) :
    w? = m.warning? (.stitch op direction n names) ∧
      ∀ w ∈ w?, (m.stitch op direction n names).machine = m := by
  rcases m.stitch_cases op direction n names with
    ⟨e, heq⟩ | ⟨slot, rfl, heq⟩ | ⟨leader, rest, slot, rfl, heq⟩
  · simp [heq, fail] at h
  · rw [heq] at h ⊢
    unfold stitchBare at h ⊢
    cases op with
    | miss => simp [fail] at h
    | tuck =>
      obtain rfl := warning_of_submit h
      simp [warning?]
    | knit =>
      cases hdrop : m.fabric.drop n with
      | error w =>
        -- The needle is free, and the warning ends the step.
        obtain ⟨hfree, rfl⟩ := (m.fabric.drop_warns_iff n).1 hdrop
        have hempty : (m.fabric.heldAt n).isEmpty := List.isEmpty_iff.2 hfree
        simp only [hdrop, skip, Except.ok.injEq] at h
        simp [warning?, hempty, ← h, skip]
      | ok dropped =>
        have hheld : m.fabric.heldAt n ≠ [] := by
          intro hfree
          simp [(m.fabric.drop_warns_iff n).2 ⟨hfree, rfl⟩] at hdrop
        simp only [hdrop] at h
        obtain rfl := warning_of_submit h
        simp [warning?, hheld]
  · rw [heq] at h
    obtain ⟨lane, -, rfl, -⟩ := warning_of_withYarn h
    cases op <;> simp [warning?]

theorem split_skipped (hf : m.fabric.WellFormed) {direction : Direction} {source target : Needle}
    {names : List String} {w? : Option Warning}
    (h : (m.split direction source target names).outcome = .ok w?) :
    w? = m.warning? (.split direction source target names) ∧
      ∀ w ∈ w?, m.SkippedTo (.split direction source target names) w
        (m.split direction source target names).machine := by
  -- Whatever the loops are moved with, the transfer warns just if the source is free.
  have hwarns : ∀ laneCount, (m.fabric.heldAt source).isEmpty ↔
      m.fabric.transfer source target laneCount = .error (.emptyTransfer source) := by
    intro laneCount
    rw [List.isEmpty_iff, hf.transfer_warns_iff]
    simp [Fabric.IsFree]
  rcases m.split_cases direction source target names with
    ⟨e, heq⟩ | ⟨rfl, ⟨w, htransfer, heq⟩ | ⟨fabric, events, kind, slot, htransfer, heq⟩⟩ |
      ⟨leader, rest, kind, slot, rfl, -, heq⟩
  · simp [heq, fail] at h
  · obtain ⟨hfree, rfl⟩ := (hf.transfer_warns_iff ..).1 htransfer
    have hempty : (m.fabric.heldAt source).isEmpty := List.isEmpty_iff.2 hfree
    rw [heq] at h ⊢
    simp only [skip, Except.ok.injEq] at h
    simp [warning?, SkippedTo, hempty, ← h, skip]
  · have hheld : ¬(m.fabric.heldAt source).isEmpty := by
      rw [hwarns m.carriers.declared.length, htransfer]
      simp
    rw [heq] at h
    obtain rfl := warning_of_submit h
    simp [warning?, hheld]
  · rw [heq] at h ⊢
    obtain ⟨lane, hlane, rfl, hfabric⟩ := warning_of_withYarn h
    simp only [SkippedTo, hfabric, splitFabric]
    cases htransfer : m.fabric.transfer source target lane.count with
    | error w =>
      obtain ⟨hfree, rfl⟩ := (hf.transfer_warns_iff ..).1 htransfer
      simp [warning?, List.isEmpty_iff.2 hfree, hlane]
    | ok moved =>
      have hheld : ¬(m.fabric.heldAt source).isEmpty := by
        rw [hwarns lane.count, htransfer]
        simp
      simp [warning?, hheld]

/-- Every instruction that succeeds warns of what could be told before it, and is skipped if it
warns. -/
theorem execute_skipped (hf : m.fabric.WellFormed) {i : Instruction} {w? : Option Warning}
    (h : (m.execute i).outcome = .ok w?) :
    w? = m.warning? i ∧ ∀ w ∈ w?, m.SkippedTo i w (m.execute i).machine := by
  have hnone : w? = none → m.warning? i = none →
      w? = m.warning? i ∧ ∀ w ∈ w?, m.SkippedTo i w (m.execute i).machine := by
    rintro rfl hi
    simp [hi]
  cases i with
  | stitch op direction n names => exact stitch_skipped h
  | split direction source target names => exact split_skipped hf h
  | bringIn kind names => exact hnone (warning_of_bringIn h) rfl
  | releaseHook names => exact hnone (warning_of_releaseHook h) rfl
  | takeOut withHook names => exact hnone (warning_of_takeOut h) rfl
  | rack racking => exact hnone (Except.ok.inj h).symm rfl
  | pause => exact hnone (Except.ok.inj h).symm rfl
  | extension op =>
    obtain rfl := Except.ok.inj h
    exact ⟨rfl, fun _ _ => rfl⟩
  | unsupported op =>
    obtain rfl := Except.ok.inj h
    exact ⟨rfl, fun _ _ => rfl⟩

/-- The fabric of every reachable machine is well-formed. -/
theorem Reachable.fabric_wellFormed {config : Config α} {allowed : Instruction → Step α → Prop}
    (h : Reachable config allowed m) : m.fabric.WellFormed := by
  induction h with
  | start hdeclared => exact Fabric.wellFormed_empty _
  | header h names ih => exact ih
  | execute h hallowed ih =>
    rw [fabric_execute]
    exact ih.foldl_apply _

/-- An instruction that succeeds reports a transfer from an empty needle, or a drop from one,
exactly if the record lists nothing there. If it warns of anything then it has changed nothing, but
for a split with yarn, whose fabric is that of its stitch without the transfer. Clearing a needle to
find out that it was empty changes nothing either. -/
theorem skipped_unless_split {config : Config α} {allowed : Instruction → Step α → Prop}
    (h : Reachable config allowed m) {i : Instruction} {w? : Option Warning}
    (hok : (m.execute i).outcome = .ok w?) :
    w? = m.warning? i ∧ (∀ w ∈ w?, m.SkippedTo i w (m.execute i).machine) ∧
      ∀ n, m.fabric.heldAt n = [] → m.fabric.clearHeld n = m.fabric := by
  have hf := h.fabric_wellFormed
  obtain ⟨hwarning, hskipped⟩ := execute_skipped hf hok
  exact ⟨hwarning, hskipped, fun n hfree => hf.clearHeld_eq_self hfree⟩

/-- A split of a needle without loops knits there, and a drop from it does nothing. -/
theorem skipped_at_empty_needle :
    let m : Machine Float32 := ((initial Config.standard).execute (.bringIn .plain ["A"])).machine
    (∃ lane, m.carriers.lane? "A" = some lane ∧
      (m.execute (.split .right (.front 0) (.back 0) ["A"])).machine.fabric =
        (m.fabric.knit .right (.front 0) lane).1) ∧
      (m.execute (.stitch .knit .right (.front 0) [])).machine = m := by
  intro m
  have hdeclared : Carriers.empty.declareAll [] = .ok .empty := rfl
  have hm : Reachable Config.standard (fun _ _ => True) m := .execute (.start hdeclared) trivial
  have hsplit : (m.execute (.split .right (.front 0) (.back 0) ["A"])).outcome =
      .ok (some (.emptyTransfer (.front 0))) := by decide +kernel
  have hdrop : (m.execute (.stitch .knit .right (.front 0) [])).outcome =
      .ok (some (.emptyDrop (.front 0))) := by decide +kernel
  obtain ⟨-, hknit, -⟩ := skipped_unless_split hm hsplit
  obtain ⟨-, hsame, -⟩ := skipped_unless_split hm hdrop
  exact ⟨(hknit _ rfl).2, hsame _ rfl⟩

end Machine

end Knitting
