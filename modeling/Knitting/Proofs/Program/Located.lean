import Knitting.Program
import Knitting.Proofs.Machine.Failure

set_option autoImplicit false

/-! # Where a program fails

Neither the notation nor the machine knows of lines: what they fail with is a plain cause
(`Error.IsPlain`). The run adds the number of the line on which it stops, and so a program that
fails names one of its own lines (`Program.runLines_error`). -/

namespace Knitting

/-- An error names no line yet. -/
def Error.IsPlain (e : Error) : Prop := ∀ n, e.locate n = .atLine n e

/-- If a result is an error, then one that names no line. -/
structure PlainErrors {β : Type} (r : Except Error β) : Prop where
  isPlain : ∀ e, r = .error e → e.IsPlain

section

variable {β γ : Type}

theorem plainErrors_ok (b : β) : PlainErrors (.ok b) := ⟨nofun⟩

theorem plainErrors_error {e : Error} (h : e.IsPlain) :
    PlainErrors (.error e : Except Error β) := by
  refine ⟨?_⟩
  intro e' he
  exact Except.error.inj he ▸ h

theorem PlainErrors.bind {r : Except Error β} {f : β → Except Error γ} (hr : PlainErrors r)
    (hf : ∀ b, PlainErrors (f b)) : PlainErrors (r >>= f) := by
  cases r with
  | error e => exact plainErrors_error (hr.isPlain e rfl)
  | ok b => exact hf b

theorem PlainErrors.map {r : Except Error β} (hr : PlainErrors r) (f : β → γ) :
    PlainErrors (r.map f) := by
  cases r with
  | error e => exact plainErrors_error (hr.isPlain e rfl)
  | ok b => exact plainErrors_ok _

end

/-! ## Reading -/

namespace Instruction

theorem plainErrors_argument (op : String) (args : List String) (i : Nat) (what : Argument) :
    PlainErrors (argument op args i what) := by
  unfold argument
  split
  · exact plainErrors_ok _
  · exact plainErrors_error fun _ => rfl

theorem plainErrors_parseNeedle (token : String) : PlainErrors (Needle.parse token) := by
  refine ⟨?_⟩
  intro e he
  obtain ⟨rfl, -⟩ := Needle.parse_eq_error_iff.1 he
  exact fun _ => rfl

theorem plainErrors_parseDirection (op : String) (args : List String) :
    PlainErrors (parseDirection op args) := by
  refine (plainErrors_argument ..).bind ?_
  intro token
  unfold Direction.parse
  split
  · exact plainErrors_ok _
  · exact plainErrors_error fun _ => rfl

theorem plainErrors_parseRacking (token : String) : PlainErrors (Racking.parse token) := by
  unfold Racking.parse
  split
  · exact plainErrors_error fun _ => rfl
  · dsimp only
    split
    · exact plainErrors_ok _
    · exact plainErrors_error fun _ => rfl

theorem plainErrors_parseStitch (stitchOp : StitchOp) (op : String) (direction : Direction)
    (args : List String) (i : Nat) : PlainErrors (parseStitch stitchOp op direction args i) :=
  (plainErrors_argument ..).bind fun _ => (plainErrors_parseNeedle _).bind fun _ => plainErrors_ok _

theorem plainErrors_parseSplit (op : String) (direction : Direction) (args : List String)
    (i : Nat) : PlainErrors (parseSplit op direction args i) :=
  (plainErrors_argument ..).bind fun _ => (plainErrors_parseNeedle _).bind fun _ =>
    (plainErrors_argument ..).bind fun _ => (plainErrors_parseNeedle _).bind fun _ =>
      plainErrors_ok _

theorem plainErrors_ofWords (op : String) (args : List String) : PlainErrors (ofWords op args) := by
  unfold ofWords
  split
  case h_6 => exact (plainErrors_parseDirection ..).bind fun _ => plainErrors_parseStitch ..
  case h_7 => exact (plainErrors_parseDirection ..).bind fun _ => plainErrors_parseStitch ..
  case h_8 => exact (plainErrors_parseDirection ..).bind fun _ => plainErrors_parseStitch ..
  case h_9 => exact plainErrors_parseStitch ..
  case h_10 => exact plainErrors_parseStitch ..
  case h_11 => exact (plainErrors_parseDirection ..).bind fun _ => plainErrors_parseSplit ..
  case h_12 => exact plainErrors_parseSplit ..
  case h_13 =>
    split
    · exact (plainErrors_parseRacking _).map _
    · exact plainErrors_error fun _ => rfl
  case h_15 => split <;> exact plainErrors_ok _
  all_goals exact plainErrors_ok _

theorem plainErrors_parse (line : List Char) : PlainErrors (parse line) := by
  unfold parse
  split
  · exact plainErrors_ok _
  · exact (plainErrors_ofWords ..).map _

end Instruction

/-! ## Executing -/

theorem Error.IsRefusal.isPlain {e : Error} (h : e.IsRefusal) : e.IsPlain := by
  cases e with
  | atLine number cause => exact h.elim
  | _ => exact fun _ => rfl

namespace Machine

variable {α : Type}

theorem Failure.isPlain {m m' : Machine α} {i : Instruction} {e : Error}
    (h : m.Failure i e m') : e.IsPlain := by
  cases h with
  | refused he => exact he.isPlain
  | _ => exact fun _ => rfl

/-- No instruction fails with an error that names a line. -/
theorem plainErrors_execute [Scalar α] (m : Machine α) (i : Instruction) :
    PlainErrors (m.execute i).outcome :=
  ⟨fun e he => (failsAs_execute m i e he).isPlain⟩

end Machine

/-! ## Running lines -/

namespace Program

open Machine

variable {α : Type} [Scalar α]

theorem runLine_error {m : Machine α} {number : Nat} {line : List Char} {e : Error}
    (h : (runLine m number line).result = .error e) : ∃ cause, e = .atLine number cause := by
  unfold runLine at h
  dsimp only at h
  split at h
  · next cause hparse =>
    obtain rfl := Except.error.inj h
    exact ⟨cause, (Instruction.plainErrors_parse _).isPlain cause hparse number⟩
  · simp at h
  · next i _ =>
    split at h
    · next cause hcause =>
      obtain rfl := Except.error.inj h
      exact ⟨cause, (plainErrors_execute _ i).isPlain cause hcause number⟩
    · simp at h
    · simp at h

/-- Lines that fail name the one of them on which they do. -/
theorem runLines_error {m : Machine α} {number : Nat} {lines : List (List Char)} {e : Error}
    (h : (runLines m number lines).result = .error e) :
    ∃ n cause, e = .atLine n cause ∧ number ≤ n ∧ n < number + lines.length := by
  induction lines generalizing m number with
  | nil => simp [runLines] at h
  | cons line rest ih =>
    rw [List.length_cons]
    unfold runLines Run.andThen at h
    split at h
    · next e' hline =>
      obtain rfl := Except.error.inj h
      obtain ⟨cause, rfl⟩ := runLine_error hline
      exact ⟨number, cause, rfl, Nat.le_refl _, by omega⟩
    · next m' hline =>
      obtain ⟨n, cause, rfl, hlo, hhi⟩ := ih h
      exact ⟨n, cause, rfl, by omega, by omega⟩

end Program

end Knitting
