import Knitting.Proofs.Bounds.Attempt
import Knitting.Proofs.Pass.Work

set_option autoImplicit false

/-! # Attempts on the schedule

Scheduling a pass counts its kicks and closes passes. The count never falls while a pass is
scheduled, so it stays a count all along if it is one in the end (`Schedule.comes_trySubmit`). -/

namespace Knitting

namespace Schedule

def tryAppend (room : Nat) (s : Schedule) (p : Pass) : Attempt (Schedule × List Event) :=
  match s.openPass with
  | none => return ({ s with openPass := some p }, [])
  | some last =>
    match last.absorb? p with
    | some joined => return ({ s with openPass := some joined }, [.merged p.slots.keys])
    | none => do
      let closed ← Attempt.push room s.closed last
      return (⟨closed, some p⟩, [])

theorem comes_tryAppend (s : Schedule) (p : Pass) :
    Attempt.Comes (fun room => s.closed.length ≤ room) (fun room => s.tryAppend room p) (s.append p)
      (fun room => (s.append p).1.closed.length ≤ room) := by
  unfold tryAppend append
  cases s.openPass with
  | none => exact Attempt.comes_ok fun _ => id
  | some last =>
    dsimp only
    cases last.absorb? p with
    | some joined => exact Attempt.comes_ok fun _ => id
    | none => exact (Attempt.comes_push s.closed last).bind (Attempt.comes_ok fun _ => And.right)

/-- Taking carriers out and letting go of the hook close no pass. -/
theorem closed_takeOut (s : Schedule) (names : List String) (withHook : Bool) :
    (s.takeOut names withHook).1.closed = s.closed := by
  unfold takeOut
  split
  · rfl
  · split <;> rfl

theorem closed_release (s : Schedule) : s.release.1.closed = s.closed := by
  unfold release
  split
  · rfl
  · split <;> rfl

end Schedule

namespace Submission

variable {room : Nat} {racking : Float} {s : Submission}

/-! ## The count of kicks never falls -/

theorem kicks_le_emit (s : Submission) (p : Pass) : s.kicks ≤ (s.emit p).kicks := by
  rw [kicks_emit]
  exact Nat.le_add_right _ _

theorem kicks_le_foldl {ι : Type} {f : Submission → ι → Submission}
    (hf : ∀ (s : Submission) (i : ι), s.kicks ≤ (f s i).kicks) (is : List ι) (s : Submission) :
    s.kicks ≤ (is.foldl f s).kicks := by
  induction is generalizing s with
  | nil => exact Nat.le_refl _
  | cons i is ih => exact (hf s i).trans (ih (f s i))

theorem kicks_le_resolve (depth : Nat) (s : Submission) (p : Pass) :
    s.kicks ≤ (resolve racking depth s p).kicks := by
  induction depth generalizing s p with
  | zero => exact kicks_le_emit s p
  | succ depth ih =>
    rw [resolve]
    have hkicks := kicks_le_foldl (fun s (b : Blocker) => ih s (p.kickFor b.slot b.name))
      (p.blockers s.carriers racking s.settled) (s.settle (p.blockers s.carriers racking s.settled))
    exact Nat.le_trans hkicks (kicks_le_emit _ p)

/-! ## Carrying passes out -/

/-- The number of kicks with one more pass. -/
def tryCountKick (room : Nat) (s : Submission) (p : Pass) : Attempt Nat :=
  if p.kick then Attempt.count room (s.kicks + 1) else return s.kicks

theorem tryCountKick_eq_ok {p : Pass} (hkicks : (s.emit p).kicks ≤ 2 * room + 1) :
    s.tryCountKick room p = .ok (s.emit p).kicks := by
  rw [kicks_emit] at hkicks ⊢
  unfold tryCountKick
  cases hkick : p.kick with
  | true => exact Attempt.count_eq_ok (by simpa [hkick] using hkicks)
  | false => rfl

def tryEmit (room : Nat) (s : Submission) (p : Pass) : Attempt Submission := do
  let kicks ← s.tryCountKick room p
  let (schedule, events) ← s.schedule.tryAppend room p
  return { s with
    schedule
    carriers := if p.kick then s.carriers.afterKick p else s.carriers
    kicks
    events := s.events ++ events }

/-- A submission whose passes there is room for. -/
def Within (room : Nat) (s : Submission) : Prop := s.schedule.closed.length ≤ room

/-- A submission and a count of kicks that there is room for. -/
structure Fits (room : Nat) (s : Submission) (kicks : Nat) : Prop where
  within : s.Within room
  kicks : kicks ≤ 2 * room + 1

theorem comes_tryEmit (s : Submission) (p : Pass) :
    Attempt.Comes (fun room => s.Fits room (s.emit p).kicks) (fun room => s.tryEmit room p)
      (s.emit p) (s.emit p).Within := by
  unfold tryEmit
  refine Attempt.Comes.after ?_ fun room h => tryCountKick_eq_ok h.kicks
  refine ((Schedule.comes_tryAppend s.schedule p).of fun room h => h.within).bind ?_
  exact Attempt.comes_ok fun _ => And.right

def tryResolve (room : Nat) (racking : Float) : Nat → Submission → Pass → Attempt Submission
  | 0, s, p => s.tryEmit room p
  | depth + 1, s, p => do
    let blockers := p.blockers s.carriers racking s.settled
    let s ← blockers.foldlM (fun s b => tryResolve room racking depth s (p.kickFor b.slot b.name))
      (s.settle blockers)
    s.tryEmit room p

/-- Kicks one after the other, if each of them can be carried out. -/
theorem comes_foldlM_tryResolve {depth : Nat} {p : Pass}
    (ih : ∀ (s : Submission) (p : Pass), Attempt.Comes
      (fun room => s.Fits room (resolve racking depth s p).kicks)
      (fun room => tryResolve room racking depth s p)
      (resolve racking depth s p) (resolve racking depth s p).Within)
    (blockers : List Blocker) (s : Submission) :
    let s' := blockers.foldl (fun s b => resolve racking depth s (p.kickFor b.slot b.name)) s
    Attempt.Comes (fun room => s.Fits room s'.kicks)
      (fun room => blockers.foldlM
        (fun s b => tryResolve room racking depth s (p.kickFor b.slot b.name)) s)
      s' s'.Within := by
  induction blockers generalizing s with
  | nil => exact Attempt.comes_ok fun _ h => h.within
  | cons b blockers ihBlockers =>
    intro s'
    have hfirst : (resolve racking depth s (p.kickFor b.slot b.name)).kicks ≤ s'.kicks :=
      kicks_le_foldl (fun s b => kicks_le_resolve depth s (p.kickFor b.slot b.name)) blockers _
    simp only [List.foldlM_cons]
    refine ((ih s _).of fun room h => ⟨h.within, hfirst.trans h.kicks⟩).bind ?_
    exact (ihBlockers _).of fun room h => ⟨h.2, h.1.kicks⟩

theorem comes_tryResolve (depth : Nat) (s : Submission) (p : Pass) :
    Attempt.Comes (fun room => s.Fits room (resolve racking depth s p).kicks)
      (fun room => tryResolve room racking depth s p)
      (resolve racking depth s p) (resolve racking depth s p).Within := by
  induction depth generalizing s p with
  | zero => exact comes_tryEmit s p
  | succ depth ih =>
    simp only [tryResolve]
    rw [resolve]
    have hkicks := comes_foldlM_tryResolve (p := p) ih (p.blockers s.carriers racking s.settled)
      (s.settle (p.blockers s.carriers racking s.settled))
    refine (hkicks.of fun room h => ?_).bind ?_
    · exact ⟨h.within, (kicks_le_emit _ p).trans h.kicks⟩
    · exact (comes_tryEmit _ p).of fun room h => ⟨h.2, h.1.kicks⟩

end Submission

def Schedule.trySubmit (room : Nat) (s : Schedule) (carriers : Carriers) (racking : Float)
    (p : Pass) : Attempt (Except Error Submission) :=
  match p.validate with
  | .error e => return .error e
  | .ok () => do
    let r ← Submission.tryResolve room racking (carriers.members.length + 1)
      ⟨s, carriers, p.carriers, 0, []⟩ p
    return .ok r

theorem Schedule.comes_trySubmit (s : Schedule) (carriers : Carriers) (racking : Float) (p : Pass) :
    Attempt.Comes
      (fun room => s.closed.length ≤ room ∧
        ∀ r, s.submit carriers racking p = .ok r → r.kicks ≤ 2 * room + 1)
      (fun room => s.trySubmit room carriers racking p) (s.submit carriers racking p)
      (fun room => ∀ r, s.submit carriers racking p = .ok r → r.Within room) := by
  unfold trySubmit submit
  cases p.validate with
  | error e =>
    refine Attempt.comes_ok ?_
    intro room _ r hsubmit
    simp at hsubmit
  | ok =>
    dsimp only
    refine ((Submission.comes_tryResolve _ _ p).of fun room h => ⟨h.1, h.2 _ rfl⟩).bind ?_
    refine Attempt.comes_ok ?_
    rintro room ⟨-, hwithin⟩ _ ⟨⟩
    exact hwithin

end Knitting
