import Knitting.Proofs.Machine.Reach
import Knitting.Proofs.Pass.Cascade

set_option autoImplicit false

/-! # The count of kicks

A machine counts the kicks among its passes, whatever it has been told and whether or not it was
told to do what cannot be done (`Machine.Reachable.countsKicks`). Between two instructions the open
pass is never a kick, and so every pass is scheduled with kicks as they should be. -/

namespace Knitting

namespace Schedule

/-- The number of kicks among the passes. -/
def kickCount (s : Schedule) : Nat := s.passes.countP (·.kick)

/-- The last pass, if there is one yet, is no kick. -/
def EndsPlain (s : Schedule) : Prop := ∀ q ∈ s.openPass, q.kick = false

theorem kickCount_eq {s : Schedule} (h : s.EndsPlain) : s.kickCount = s.closed.countP (·.kick) := by
  unfold kickCount passes
  cases hopen : s.openPass with
  | none => simp
  | some q => simp [h q hopen]

theorem endsPlain_some {closed : List Pass} {p : Pass} (h : p.kick = false) :
    EndsPlain ⟨closed, some p⟩ := by
  intro q hq
  obtain rfl := Option.some.inj hq
  exact h

theorem kick_of_absorb? {p q joined : Pass} (h : p.absorb? q = some joined) :
    joined.kick = p.kick := by
  unfold Pass.absorb? at h
  split at h
  · simp at h
  · obtain ⟨slots, -, rfl⟩ := Option.map_eq_some_iff.1 h
    rfl

/-- A pass that is no kick does not change the count. -/
theorem append_plain {s : Schedule} {p : Pass} (hs : s.EndsPlain) (hp : p.kick = false) :
    (s.append p).1.EndsPlain ∧ (s.append p).1.kickCount = s.kickCount := by
  have hplain : (s.append p).1.EndsPlain ∧
      (s.append p).1.closed.countP (·.kick) = s.closed.countP (·.kick) := by
    unfold append
    cases hopen : s.openPass with
    | none => exact ⟨endsPlain_some hp, rfl⟩
    | some q =>
      have hq := hs q hopen
      dsimp only
      split
      · next joined hjoin => exact ⟨endsPlain_some ((kick_of_absorb? hjoin).trans hq), rfl⟩
      · exact ⟨endsPlain_some hp, by simp [hq]⟩
  exact ⟨hplain.1, by rw [kickCount_eq hplain.1, kickCount_eq hs, hplain.2]⟩

theorem takeOut_plain {s : Schedule} (hs : s.EndsPlain) (names : List String) (withHook : Bool) :
    (s.takeOut names withHook).1.EndsPlain ∧
      (s.takeOut names withHook).1.kickCount = s.kickCount := by
  have hplain : (s.takeOut names withHook).1.EndsPlain ∧
      (s.takeOut names withHook).1.closed = s.closed := by
    unfold takeOut
    cases hopen : s.openPass with
    | none => exact ⟨hs, rfl⟩
    | some q =>
      dsimp only
      split
      · exact ⟨hs, rfl⟩
      · exact ⟨endsPlain_some (hs q hopen), rfl⟩
  exact ⟨hplain.1, by rw [kickCount_eq hplain.1, kickCount_eq hs, hplain.2]⟩

theorem release_plain {s : Schedule} (hs : s.EndsPlain) :
    s.release.1.EndsPlain ∧ s.release.1.kickCount = s.kickCount := by
  have hplain : s.release.1.EndsPlain ∧ s.release.1.closed = s.closed := by
    unfold release
    cases hopen : s.openPass with
    | none => exact ⟨hs, rfl⟩
    | some q =>
      dsimp only
      split
      · exact ⟨endsPlain_some (hs q hopen), rfl⟩
      · exact ⟨hs, rfl⟩
  exact ⟨hplain.1, by rw [kickCount_eq hplain.1, kickCount_eq hs, hplain.2]⟩

/-- Scheduling a pass counts the kicks for it. -/
theorem Cascade.plain {schedule : Schedule} {carriers : Carriers} {racking : Float} {p : Pass}
    {kicks : List Pass} {r : Submission} (h : schedule.Cascade carriers racking p kicks r)
    (hs : schedule.EndsPlain) (hp : p.kick = false) :
    r.schedule.EndsPlain ∧ r.schedule.kickCount = schedule.kickCount + r.kicks := by
  by_cases hkicks : kicks = []
  · subst hkicks
    have happend : r.schedule = (schedule.append p).1 := h.emitted
    rw [happend, h.count]
    exact append_plain hs hp
  · have hall : kicks.countP (·.kick) = kicks.length := by
      refine List.countP_eq_length.2 ?_
      intro k hk
      obtain ⟨c, -, -, -, slot, direction, -, rfl⟩ := h.kick k hk
      rfl
    have hplain : r.schedule.EndsPlain := h.separate hkicks ▸ endsPlain_some hp
    refine ⟨hplain, ?_⟩
    rw [kickCount_eq hplain, h.separate hkicks, List.countP_append, hall, h.count]
    rfl

end Schedule

namespace Machine

variable {α : Type} {m m' : Machine α}

/-- A machine has counted the kicks among its passes, the last of which is no kick. -/
structure CountsKicks (m : Machine α) : Prop where
  plain : m.schedule.EndsPlain
  count : m.kicks = m.schedule.kickCount

/-- A step that touches neither schedule nor count. -/
theorem CountsKicks.congr (h : m.CountsKicks) (hschedule : m'.schedule = m.schedule)
    (hkicks : m'.kicks = m.kicks) : m'.CountsKicks :=
  ⟨hschedule ▸ h.plain, by rw [hkicks, hschedule, h.count]⟩

theorem CountsKicks.submit (h : m.CountsKicks) {carriers : Carriers} {p : Pass} {r : Submission}
    (hnames : (carriers.members.map (·.name)).Nodup) (hp : p.kick = false)
    (hsubmit : m.schedule.submit carriers m.racking p = .ok r)
    (hschedule : m'.schedule = r.schedule) (hkicks : m'.kicks = m.kicks + r.kicks) :
    m'.CountsKicks := by
  have hvalid := Schedule.validate_of_submit hsubmit
  obtain ⟨kicks, r', hsubmit', hcascade, -⟩ :=
    Schedule.exists_cascade h.plain hnames hp hvalid m.racking
  obtain rfl := Except.ok.inj (hsubmit.symm.trans hsubmit')
  obtain ⟨hplain, hcount⟩ := hcascade.plain h.plain hp
  exact ⟨hschedule ▸ hplain, by rw [hkicks, hschedule, hcount, h.count]⟩

theorem Effect.countsKicks {i : Instruction} (h : m.Effect i m')
    (hnames : (m.carriers.members.map (·.name)).Nodup) (hm : m.CountsKicks) : m'.CountsKicks := by
  cases h with
  | idle => exact hm
  | bringIn => exact hm.congr rfl rfl
  | releaseHook =>
    obtain ⟨hplain, hcount⟩ := Schedule.release_plain hm.plain
    exact ⟨hplain, hm.count.trans hcount.symm⟩
  | @takeOut withHook names =>
    obtain ⟨hplain, hcount⟩ := Schedule.takeOut_plain hm.plain names withHook
    exact ⟨hplain, hm.count.trans hcount.symm⟩
  | rack => exact hm.congr rfl rfl
  | bare _ hsubmit => exact hm.submit hnames rfl hsubmit rfl rfl
  | yarn _ _ huse hsubmit =>
    obtain ⟨-, rfl, hp⟩ := use_eq_ok_iff.1 huse
    refine hm.submit ?_ ?_ hsubmit rfl rfl
    · rwa [Carriers.names_park, names_takePending]
    · rcases hp with ⟨-, rfl⟩ | ⟨pending, -, -, rfl⟩ <;> rfl

variable [Scalar α] {config : Config α} {allowed : Instruction → Step α → Prop}

/-- Every reachable machine has counted its kicks. -/
theorem Reachable.countsKicks (h : Reachable config allowed m) : m.CountsKicks := by
  induction h with
  | start => exact ⟨nofun, rfl⟩
  | header h names ih => exact ih.congr rfl rfl
  | @execute m h i hallowed ih =>
    rcases ends_execute m i with ⟨e, t, -, -, hm⟩ | ⟨w, -, heffect⟩
    · rw [hm]
      exact ih.congr rfl rfl
    · exact heffect.countsKicks h.nodup_names ih

/-- A pass that is no kick, scheduled behind one that is none, is worked off from the stack in two
turns for each pass and is scheduled with kicks as they should be. So over any session the count of
kicks is the number of kicks among the passes. -/
theorem kicks_exact :
    (∀ (schedule : Schedule) (carriers : Carriers) (racking : Float) (p : Pass),
      (∀ q ∈ schedule.openPass, q.kick = false) → (carriers.members.map (·.name)).Nodup →
      p.kick = false → p.validate = .ok () →
      ∃ kicks r, schedule.submit carriers racking p = .ok r ∧
        schedule.Cascade carriers racking p kicks r ∧
        (Submission.turn racking)^[2 * (kicks.length + 1)]
          ([.unresolved p], ⟨schedule, carriers, p.carriers, 0, []⟩) = ([], r)) ∧
      ∀ (config : Config α) (m : Machine α), Reachable config (fun _ _ => True) m →
        ∀ warnings, (m.output warnings).kicks = (m.output warnings).passes.countP (·.kick) :=
  ⟨fun _ _ racking _ hopen hnames hkick hvalid =>
      Schedule.exists_cascade hopen hnames hkick hvalid racking,
    fun _ _ hm _ => hm.countsKicks.count⟩

/-- A carrier parked just left of slot 9 is kicked before a stitch to the left there, and a stitch
after bringing a carrier in needs no kick. -/
theorem kick_before_stitch :
    (∃ kicks r, Schedule.empty.submit .crossed 0
        (.single .knitTuck 9 .knitFront 0 5 .left ["A"]) = .ok r ∧
      r.schedule.passes = kicks ++ [.single .knitTuck 9 .knitFront 0 5 .left ["A"]] ∧
      r.kicks = kicks.length ∧ kicks ≠ []) ∧
    ∀ config : Config Float32,
      let m := ((initial config).execute (.bringIn .plain ["A"])).machine
      ((m.execute (.stitch .knit .right (.front 0) ["A"])).machine.output []).kicks =
        ((m.execute (.stitch .knit .right (.front 0) ["A"])).machine.output []).passes.countP
          (·.kick) := by
  obtain ⟨hsubmit, hcount⟩ := kicks_exact (α := Float32)
  refine ⟨?_, ?_⟩
  · obtain ⟨kicks, r, hr, hcascade, -⟩ := hsubmit .empty .crossed 0
      (.single .knitTuck 9 .knitFront 0 5 .left ["A"]) nofun (by decide) rfl rfl
    have hne : kicks ≠ [] := by
      intro hnil
      refine hcascade.needed.1 hnil ⟨"B", some ⟨.front 9, .left, 2⟩, some ⟨.plain, ["B"]⟩⟩
        (by decide) (by decide) ⟨by decide, 9, rfl, ?_⟩
      decide +kernel
    refine ⟨kicks, r, hr, ?_, hcascade.count, hne⟩
    rw [hcascade.separate hne]
    simp [Schedule.passes, Schedule.empty]
  · intro config
    have hdeclared : Carriers.empty.declareAll [] = .ok .empty := rfl
    exact hcount config _ (.execute (.execute (.start hdeclared) trivial) trivial) []

end Machine

end Knitting
