import Knitting.Proofs.Machine.Independence
import Knitting.Proofs.Program.Lanes
import Knitting.Proofs.Program.Prefix

set_option autoImplicit false

/-! # First uses

A program without a header has its carriers declared in the order of their first uses, which a scan
of all lines finds before the first of them runs. A session that carries out the same instructions
and starts with nothing declared comes to the same list by bringing carriers in
(`Machine.declared_after`), and a run that starts with the list of the scan has it at every line
(`Program.carriers_by_first_use`). -/

namespace Knitting

/-- A session in which nothing fails declares what it brings in, in the order of its
instructions. -/
theorem Machine.declared_after {α : Type} [Scalar α] {m : Machine α} {is : List Instruction}
    (h : ∀ outcome ∈ m.outcomes is, ∃ w, outcome = .ok w) :
    (m.after is).carriers.declared =
      Carriers.appendNew m.carriers.declared (is.flatMap (·.broughtIn)) := by
  induction is generalizing m with
  | nil => rfl
  | cons i is ih =>
    rw [outcomes_cons, List.forall_mem_cons] at h
    obtain ⟨hok, hrest⟩ := h
    rw [after_cons, ih hrest, (effect_of_succeeds hok).declared.1, Carriers.appendNew_appendNew,
      List.flatMap_cons]

namespace Program

open Machine

/-- The instruction of a line, if it has one that can be read. -/
def instruction? (line : List Char) : Option Instruction :=
  (Instruction.parse (code line)).toOption.join

/-- The instructions of some lines in their order. -/
def instructions (lines : List (List Char)) : List Instruction := lines.filterMap instruction?

/-! ## The scan -/

theorem broughtIn_eq (line : List Char) :
    broughtIn line = (instruction? line).elim [] (·.broughtIn) := by
  unfold broughtIn instruction?
  cases Instruction.parse (code line) with
  | error e => rfl
  | ok parsed =>
    cases parsed with
    | none => rfl
    | some i => cases i <;> rfl

/-- The scan declares what the instructions bring in. -/
theorem declaredAfter_eq (declared : List String) (lines : List (List Char)) :
    declaredAfter declared lines =
      Carriers.appendNew declared ((instructions lines).flatMap (·.broughtIn)) := by
  unfold declaredAfter
  induction lines generalizing declared with
  | nil => rfl
  | cons line rest ih =>
    rw [List.foldl_cons, ih, Carriers.appendNew_appendNew, broughtIn_eq, instructions, instructions,
      List.filterMap_cons]
    cases instruction? line <;> rfl

theorem firstUses_eq (lines : List (List Char)) :
    firstUses lines = ((instructions lines).flatMap (·.broughtIn)).eraseDups := by
  rw [← Carriers.appendNew_nil]
  exact declaredAfter_eq [] lines

/-! ## The run -/

variable {α : Type} [Scalar α] {m m' : Machine α} {number : Nat} {lines : List (List Char)}

/-- Lines without a header that are accepted are a session of their instructions. -/
theorem session_of_runLines (h : (runLines m number lines).result = .ok m')
    (hheader : ∀ line ∈ lines, header? line = none) :
    (∀ outcome ∈ m.outcomes (instructions lines), ∃ w, outcome = .ok w) ∧
      m' = m.after (instructions lines) := by
  induction lines generalizing m number with
  | nil =>
    obtain rfl := Except.ok.inj h
    exact ⟨nofun, rfl⟩
  | cons line rest ih =>
    obtain ⟨next, hline, hrest, -⟩ := runLines_cons h
    obtain ⟨houtcomes, hend⟩ := ih hrest fun l hl => hheader l (List.mem_cons_of_mem _ hl)
    have hstart : (runHeader m number line).1 = m :=
      runHeader_eq_self (.inr (hheader line List.mem_cons_self))
    have hcons : instructions (line :: rest) = (instruction? line).toList ++ instructions rest := by
      rw [instructions, List.filterMap_cons, instructions]
      cases instruction? line <;> rfl
    rcases runLine_eq_ok hline with ⟨hparse, hnext⟩ | ⟨i, hparse, hok, hnext⟩
    · rw [hstart] at hnext
      subst hnext
      rw [hcons, instruction?, hparse]
      exact ⟨houtcomes, hend⟩
    · rw [hstart] at hok hnext
      subst hnext
      rw [hcons, instruction?, hparse]
      exact ⟨List.forall_mem_cons.2 ⟨hok, houtcomes⟩, hend⟩

/-- A program without a header has declared what the scan found once any number of its lines have
run. -/
theorem declared_of_take {config : Config α}
    (h : (runLines { initial config with carriers := carriersBefore lines } 1 lines).result = .ok m)
    (hheader : ∀ line ∈ lines, header? line = none) (n : Nat) :
    ∃ next, (runLines { initial config with carriers := carriersBefore lines } 1
        (lines.take n)).result = .ok next ∧ next.carriers.declared = firstUses lines := by
  have hsplit : (runLines { initial config with carriers := carriersBefore lines } 1
      (lines.take n ++ lines.drop n)).result = .ok m := by
    rw [List.take_append_drop]
    exact h
  obtain ⟨next, -, hfirst, -, -⟩ := runLines_append hsplit
  obtain ⟨hdeclared, -⟩ := lanes_of_fixed hfirst <| .inr fun _ hline =>
    fixed_of_no_header hheader (List.mem_of_mem_take hline)
  exact ⟨next, hfirst, hdeclared.trans (declared_carriersBefore hheader)⟩

/-- The instructions of a program without a header can also be carried out with nothing declared
before, since no report depends on that. -/
theorem session_of_first_uses {config : Config α}
    (h : (runLines { initial config with carriers := carriersBefore lines } 1 lines).result = .ok m)
    (hheader : ∀ line ∈ lines, header? line = none) :
    (∀ outcome ∈ (initial config).outcomes (instructions lines), ∃ w, outcome = .ok w) ∧
      ((initial config).after (instructions lines)).carriers.declared = firstUses lines := by
  -- Nothing is declared before a program without lines.
  obtain ⟨halike, hstart, hinitial⟩ := follows_start config lines []
  have hsame : Machine.outcomes { initial config with carriers := carriersBefore lines }
      (instructions lines) = (initial config).outcomes (instructions lines) :=
    (halike.session hstart hinitial (instructions lines)).1
  have houtcomes : ∀ outcome ∈ (initial config).outcomes (instructions lines),
      ∃ w, outcome = .ok w := by
    rw [← hsame]
    exact (session_of_runLines h hheader).1
  refine ⟨houtcomes, ?_⟩
  rw [declared_after houtcomes, firstUses_eq]
  exact Carriers.appendNew_nil _

/-- The carriers of a program that has no header and is accepted are those that its instructions
bring in, each once, in the order in which they first come up. A session of the same instructions
that starts with nothing declared succeeds as well and ends with the same carriers declared; and the
program has them declared before its first line, between any two lines, and in the end. -/
theorem carriers_by_first_use {config : Config α} {source : String} {out : Output α}
    (h : (run config source).result = .ok out)
    (hheader : ∀ line ∈ Text.lines source.toList, header? line = none) :
    let lines := Text.lines source.toList
    let is := instructions lines
    let start : Machine α := { initial config with carriers := carriersBefore lines }
    out.carriers = (is.flatMap (·.broughtIn)).eraseDups ∧
      ((∀ outcome ∈ (initial config).outcomes is, ∃ w, outcome = .ok w) ∧
        ((initial config).after is).carriers.declared = out.carriers) ∧
      ∀ n, ∃ m, (runLines start 1 (lines.take n)).result = .ok m ∧
        m.carriers.declared = out.carriers := by
  intro lines is start
  obtain ⟨m, hrun, rfl⟩ := run_eq_ok h
  have hcarriers : m.carriers.declared = firstUses lines := by
    obtain ⟨last, hlast, hdeclared⟩ := declared_of_take hrun hheader lines.length
    rw [List.take_length, hrun] at hlast
    obtain rfl := Except.ok.inj hlast
    exact hdeclared
  obtain ⟨houtcomes, hsession⟩ := session_of_first_uses hrun hheader
  refine ⟨hcarriers.trans (firstUses_eq lines), ⟨houtcomes, hsession.trans hcarriers.symm⟩, ?_⟩
  intro n
  obtain ⟨next, hnext, hdeclared⟩ := declared_of_take hrun hheader n
  exact ⟨next, hnext, hdeclared.trans hcarriers.symm⟩

/-- A carrier that comes in again is declared once, and one in a comment is not. -/
theorem first_uses_of_two :
    let source := ";!knitout-2\nin 2 ; in 9\nknit + f0 2\nout 2\ninhook 3 2\n"
    let lines := Text.lines source.toList
    ∃ out : Output Float32, (run .standard source).result = .ok out ∧
      (∀ line ∈ lines, header? line = none) ∧ out.carriers = ["2", "3"] ∧
      ((initial (.standard : Config Float32)).after (instructions lines)).carriers.declared =
        ["2", "3"] := by
  intro source lines
  have hrun : ((run (.standard : Config Float32) source).result.toOption.map (·.carriers)) =
      some ["2", "3"] := by decide +kernel
  have hheader : ∀ line ∈ lines, header? line = none := by decide +kernel
  obtain ⟨out, hout, hcarriers⟩ := Option.map_eq_some_iff.1 hrun
  have hok := eq_ok_of_toOption hout
  obtain ⟨-, ⟨-, hsession⟩, -⟩ := carriers_by_first_use hok hheader
  exact ⟨out, hok, hheader, hcarriers, hsession.trans hcarriers⟩

end Program

end Knitting
