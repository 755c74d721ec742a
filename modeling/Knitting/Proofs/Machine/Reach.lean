import Knitting.Program
import Knitting.Proofs.Machine.Effect
import Knitting.Proofs.Pass.Work

set_option autoImplicit false

/-! # Reachable machines

The machines that a session comes to, and of these the ones that a program comes to without an
error. In all of them the active carriers are told apart by their names
(`Machine.Reachable.nodup_names`). -/

namespace Knitting

theorem Schedule.moved_submit {schedule : Schedule} {carriers : Carriers} {racking : Float}
    {p : Pass} {r : Submission} (h : schedule.submit carriers racking p = .ok r) :
    carriers.Moved r.carriers := by
  unfold submit at h
  split at h
  · simp at h
  · obtain rfl := Except.ok.inj h
    exact (Submission.grows_resolve _ _ p).moved

/-- A pass is checked before it is scheduled. -/
theorem Schedule.validate_of_submit {schedule : Schedule} {carriers : Carriers} {racking : Float}
    {p : Pass} {r : Submission} (h : schedule.submit carriers racking p = .ok r) :
    p.validate = .ok () := by
  unfold submit at h
  split at h
  · simp at h
  · assumption

/-! ## Sessions -/

/-- A line of a program asks for an instruction. -/
def Instruction.IsParsed (i : Instruction) : Prop := ∃ line, Instruction.parse line = .ok (some i)

def Step.Succeeds {α : Type} (s : Step α) : Prop := ∃ w, s.outcome = .ok w

namespace Machine

variable {α : Type} {m : Machine α}

theorem succeeds_done (m : Machine α) (events : List Event) : (m.done events).Succeeds :=
  ⟨none, rfl⟩

theorem succeeds_skip (m : Machine α) (w : Warning) : (m.skip w).Succeeds := ⟨some w, rfl⟩

theorem not_succeeds_fail (m : Machine α) (e : Error) : ¬(m.fail e).Succeeds := nofun

theorem members_declareHeader (t : Carriers) (names : List String) :
    (t.declareHeader names).1.members = t.members := by
  unfold Carriers.declareHeader
  split <;> rfl

/-- An effect keeps the active carriers apart. -/
theorem Effect.nodup_names {i : Instruction} {m' : Machine α} (h : m.Effect i m')
    (hnames : (m.carriers.members.map (·.name)).Nodup) :
    (m'.carriers.members.map (·.name)).Nodup := by
  cases h with
  | idle => exact hnames
  | bringIn _ hin _ => exact Carriers.nodup_names_bringIn hnames hin
  | releaseHook => exact hnames
  | takeOut => exact Carriers.nodup_names_removeAll hnames _
  | rack => exact hnames
  | bare _ hsubmit =>
    dsimp only
    rwa [(Schedule.moved_submit hsubmit).names]
  | yarn _ _ huse hsubmit =>
    obtain ⟨-, rfl, -⟩ := use_eq_ok_iff.1 huse
    dsimp only
    rwa [(Schedule.moved_submit hsubmit).names, Carriers.names_park, names_takePending]

theorem LeftByFailure.nodup_names {carriers t : Carriers} (h : LeftByFailure carriers t)
    (hnames : (carriers.members.map (·.name)).Nodup) : (t.members.map (·.name)).Nodup := by
  rcases h with rfl | ⟨kind, names, hin⟩ | ⟨names, rfl⟩
  · exact hnames
  · exact Carriers.nodup_names_bringIn hnames hin
  · rwa [names_takePending]

variable [Scalar α]

/-- The machines that a session comes to with the instructions that it is allowed. It starts with
some carriers declared, and a header can come at any time. -/
inductive Reachable (config : Config α) (allowed : Instruction → Step α → Prop) :
    Machine α → Prop where
  | start {names : List String} {carriers : Carriers}
      (hdeclared : Carriers.empty.declareAll names = .ok carriers) :
      Reachable config allowed { Machine.initial config with carriers }
  | header {m : Machine α} (h : Reachable config allowed m) (names : List String) :
      Reachable config allowed { m with carriers := (m.carriers.declareHeader names).1 }
  | execute {m : Machine α} (h : Reachable config allowed m) {i : Instruction}
      (hallowed : allowed i (m.execute i)) : Reachable config allowed (m.execute i).machine

theorem effect_of_succeeds {i : Instruction} (h : (m.execute i).Succeeds) :
    m.Effect i (m.execute i).machine := by
  obtain ⟨w, hok⟩ := h
  rcases ends_execute m i with ⟨e, t, herror, -⟩ | ⟨-, -, heffect⟩
  · simp [herror] at hok
  · exact heffect

/-- A session in which nothing fails and every instruction was read from a line. -/
def Errorless (i : Instruction) (s : Step α) : Prop := i.IsParsed ∧ s.Succeeds

variable {config : Config α} {allowed : Instruction → Step α → Prop}

/-- The active carriers of a reachable machine are told apart by their names. -/
theorem Reachable.nodup_names (h : Reachable config allowed m) :
    (m.carriers.members.map (·.name)).Nodup := by
  induction h with
  | start hdeclared =>
    obtain ⟨-, rfl⟩ := Carriers.declareAll_eq_ok_iff.1 hdeclared
    exact List.nodup_nil
  | header h names ih =>
    dsimp only
    rwa [members_declareHeader]
  | @execute m h i hallowed ih =>
    rcases ends_execute m i with ⟨e, t, -, hleft, hm⟩ | ⟨w, -, heffect⟩
    · rw [hm]
      exact hleft.nodup_names ih
    · exact heffect.nodup_names ih

end Machine

/-! ## Programs -/

/-- A run that continues another comes to a result only if the other does. -/
theorem Run.andThen_eq_ok {β γ : Type} {r : Run β} {f : β → Run γ} {c : γ}
    (h : (r.andThen f).result = .ok c) : ∃ b, r.result = .ok b ∧ (f b).result = .ok c := by
  unfold andThen at h
  split at h
  · simp at h
  · next b hb => exact ⟨b, hb, h⟩

namespace Program

open Machine

variable {α : Type} [Scalar α] {config : Config α} {m m' : Machine α}

theorem reachable_runHeader {allowed : Instruction → Step α → Prop}
    (h : Reachable config allowed m) (number : Nat) (line : List Char) :
    Reachable config allowed (runHeader m number line).1 := by
  unfold runHeader
  split
  · exact h
  · exact h.header _

/-- A line that is accepted is blank, or the instruction on it succeeds. -/
theorem runLine_eq_ok {number : Nat} {line : List Char}
    (h : (runLine m number line).result = .ok m') :
    let start := (runHeader m number line).1
    (Instruction.parse (code line) = .ok none ∧ m' = start) ∨
      ∃ i, Instruction.parse (code line) = .ok (some i) ∧ (start.execute i).Succeeds ∧
        m' = (start.execute i).machine := by
  unfold runLine at h
  dsimp only at h
  split at h
  · simp at h
  · next hparse => exact .inl ⟨hparse, (Except.ok.inj h).symm⟩
  · next i hparse =>
    split at h
    · simp at h
    · next hok => exact .inr ⟨i, hparse, ⟨_, hok⟩, (Except.ok.inj h).symm⟩
    · next w hok => exact .inr ⟨i, hparse, ⟨_, hok⟩, (Except.ok.inj h).symm⟩

theorem reachable_runLine (h : Reachable config Errorless m) {number : Nat} {line : List Char}
    (hrun : (runLine m number line).result = .ok m') : Reachable config Errorless m' := by
  have hheader := reachable_runHeader h number line
  rcases runLine_eq_ok hrun with ⟨-, rfl⟩ | ⟨i, hparse, hok, rfl⟩
  · exact hheader
  · exact hheader.execute ⟨⟨_, hparse⟩, hok⟩

theorem nodup_firstUses (lines : List (List Char)) : (firstUses lines).Nodup :=
  List.foldlRecOn lines _ (motive := List.Nodup) List.nodup_nil fun _ h _ _ =>
    Carriers.nodup_appendNew h

/-- What is declared before the first line is declared one carrier after the other. -/
theorem declareAll_carriersBefore (lines : List (List Char)) :
    Carriers.empty.declareAll (carriersBefore lines).declared = .ok (carriersBefore lines) := by
  rw [Carriers.declareAll_eq_ok_iff]
  unfold carriersBefore
  split
  · exact ⟨nofun, rfl⟩
  · refine ⟨nofun, ?_⟩
    have hfirst :=
      Carriers.appendNew_eq_append (nodup_firstUses lines : ([] ++ firstUses lines).Nodup)
    simp [Carriers.empty, hfirst]

end Program

end Knitting
