import Knitting.Program
import Mathlib.Data.List.Forall2

set_option autoImplicit false

/-! # Comments

A line is cut at its first semicolon, and that by every scan of it: the one for instructions looks
at what stands before (`Program.code`), and the one for headers at what stands behind
(`Program.header?_comment`). So a program does not depend on its comments but for the carriers that
they declare (`Program.run_eq_of_readAlike`). -/

namespace Knitting

/-- A word is not found before its first character. -/
theorem Text.after?_dropWhile {word : List Char} {first : Char} (h : word.head? = some first)
    (cs : List Char) : after? word (cs.dropWhile (· ≠ first)) = after? word cs := by
  obtain ⟨rest, rfl⟩ := List.head?_eq_some_iff.1 h
  induction cs with
  | nil => rfl
  | cons c cs ih =>
    by_cases hc : c = first
    · rw [List.dropWhile_cons_of_neg (by simp [hc])]
    · have hword : (first :: rest).isPrefixOf (c :: cs) = false := by
        rw [List.isPrefixOf_cons_cons, beq_false_of_ne (Ne.symm hc), Bool.false_and]
      rw [List.dropWhile_cons_of_pos (by simp [hc]), ih, after?, hword]
      rfl

namespace Program

/-- What is left of a line when its code is taken away: nothing, or a semicolon and more. -/
def comment (line : List Char) : List Char := line.dropWhile (· ≠ ';')

/-- A header begins with a semicolon, and so there is none before the comment. -/
theorem header?_comment (line : List Char) : header? (comment line) = header? line :=
  congrArg (·.map Text.words) (Text.after?_dropWhile (by decide) line)

/-- Two lines have the same code, and their comments declare the same carriers or none. -/
structure ReadAlike (line line' : List Char) : Prop where
  code : code line = code line'
  header? : header? line = header? line'

instance (line line' : List Char) : Decidable (ReadAlike line line') :=
  decidable_of_iff (code line = code line' ∧ header? line = header? line')
    ⟨fun h => ⟨h.1, h.2⟩, fun h => ⟨h.code, h.header?⟩⟩

theorem ReadAlike.refl (line : List Char) : ReadAlike line line := ⟨rfl, rfl⟩

variable {lines lines' : List (List Char)}

/-! ## Before the first line -/

theorem ReadAlike.broughtIn {line line' : List Char} (h : ReadAlike line line') :
    broughtIn line = broughtIn line' := by
  rw [Program.broughtIn, h.code, ← Program.broughtIn]

theorem firstUses_congr (h : List.Forall₂ ReadAlike lines lines') :
    firstUses lines = firstUses lines' := by
  unfold firstUses
  generalize ([] : List String) = names
  induction h generalizing names with
  | nil => rfl
  | cons hline _ ih => rw [List.foldl_cons, List.foldl_cons, hline.broughtIn, ih]

theorem carriersBefore_congr (h : List.Forall₂ ReadAlike lines lines') :
    carriersBefore lines = carriersBefore lines' := by
  have hany : (lines.any fun line => (header? line).isSome) =
      lines'.any fun line => (header? line).isSome := by
    induction h with
    | nil => rfl
    | cons hline _ ih => rw [List.any_cons, List.any_cons, hline.header?, ih]
  rw [carriersBefore, carriersBefore, hany, firstUses_congr h]

/-! ## Running -/

variable {α : Type} [Scalar α]

theorem ReadAlike.runLine {line line' : List Char} (h : ReadAlike line line') (m : Machine α)
    (number : Nat) : runLine m number line = runLine m number line' := by
  have hheader : runHeader m number line = runHeader m number line' := by
    rw [runHeader, runHeader, h.header?]
  rw [Program.runLine, Program.runLine, hheader, h.code]

theorem runLines_congr (h : List.Forall₂ ReadAlike lines lines') (m : Machine α) (number : Nat) :
    runLines m number lines = runLines m number lines' := by
  induction h generalizing m number with
  | nil => rfl
  | cons hline _ ih =>
    rw [runLines, runLines, hline.runLine]
    congr 1
    funext m
    exact ih m (number + 1)

theorem runMachine_congr (config : Config α) (hfirst : lines.head? = lines'.head?)
    (h : List.Forall₂ ReadAlike lines lines') :
    runMachine config lines = runMachine config lines' := by
  unfold runMachine checkVersion
  rw [hfirst, carriersBefore_congr h]
  congr 1
  funext _
  exact runLines_congr h _ 1

/-- Lines that have the same first line and are read alike behind it are all read alike. -/
theorem forall₂_readAlike (hnumber : lines.length = lines'.length)
    (hfirst : lines.head? = lines'.head?)
    (hlines : ∀ pair ∈ (lines.zip lines').tail, ReadAlike pair.1 pair.2) :
    List.Forall₂ ReadAlike lines lines' := by
  cases lines with
  | nil =>
    rw [List.eq_nil_of_length_eq_zero hnumber.symm]
    exact .nil
  | cons line rest =>
    cases lines' with
    | nil => exact absurd hnumber (by simp)
    | cons line' rest' =>
      obtain rfl := Option.some.inj hfirst
      exact .cons (.refl line)
        (List.forall₂_iff_zip.2 ⟨Nat.succ.inj hnumber, fun hpair => hlines _ hpair⟩)

/-- A header is one by its comment alone. Two programs with as many lines and the same first line,
of which each further line has the same code and declares the same carriers or none, come to the
same: the same log with the same warnings at the same lines, and the same output, or the same error
at the same line. -/
theorem run_eq_of_readAlike (config : Config α) {source source' : String}
    (hnumber : (Text.lines source.toList).length = (Text.lines source'.toList).length)
    (hfirst : (Text.lines source.toList).head? = (Text.lines source'.toList).head?)
    (hlines : ∀ pair ∈ ((Text.lines source.toList).zip (Text.lines source'.toList)).tail,
      ReadAlike pair.1 pair.2) :
    (∀ line, code line ++ comment line = line ∧ header? (comment line) = header? line) ∧
      run config source = run config source' := by
  refine ⟨fun line => ⟨List.takeWhile_append_dropWhile, header?_comment line⟩, ?_⟩
  unfold run
  rw [runMachine_congr config hfirst (forall₂_readAlike hnumber hfirst hlines)]

/-- An instruction in a comment is not carried out, and what only looks like a header declares
nothing. -/
theorem instructions_in_comments :
    let lines := Text.lines ";!knitout-2\nin 1 ; in 2\nknit + f0 1;;Carrier: 2\n".toList
    let lines' := Text.lines ";!knitout-2\nin 1 ;out 1\nknit + f0 1; ;;\n".toList
    (lines.length = lines'.length ∧ lines.head? = lines'.head? ∧
      ∀ pair ∈ (lines.zip lines').tail, ReadAlike pair.1 pair.2) ∧
      run (.standard : Config Float32) ";!knitout-2\nin 1 ; in 2\nknit + f0 1;;Carrier: 2\n" =
        run .standard ";!knitout-2\nin 1 ;out 1\nknit + f0 1; ;;\n" := by
  intro lines lines'
  have hnumber : lines.length = lines'.length := by decide +kernel
  have hfirst : lines.head? = lines'.head? := by decide +kernel
  have hlines : ∀ pair ∈ (lines.zip lines').tail, ReadAlike pair.1 pair.2 := by decide +kernel
  exact ⟨⟨hnumber, hfirst, hlines⟩, (run_eq_of_readAlike .standard hnumber hfirst hlines).2⟩

end Program

end Knitting
