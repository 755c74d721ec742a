import Knitting.Proofs.Machine.Report
import Knitting.Proofs.Program.Located

set_option autoImplicit false

/-! # What comes later does not matter

What a program says of its first lines does not depend on the lines after them
(`Program.diagnostics_of_prefix`). This is not plain from how it runs: which carriers are declared
before the first line depends on all lines. But lines without a header declare to no effect on what
they report (`Program.sameDiagnostics_runLines`), and lines with a header declare nothing before
they run. -/

namespace Knitting

/-! ## Lines of a text -/

namespace Text

/-- A character that ends no line stands at the beginning of the first one. -/
theorem lines_cons {c : Char} {cs : List Char} (hc : c ≠ '\n')
    (hreturn : c = '\r' → ∀ cs', cs ≠ '\n' :: cs') :
    lines (c :: cs) = (c :: (lines cs).headD []) :: (lines cs).tail := by
  rw [lines.eq_3 c cs fun cs' hc' hcs => hreturn hc' cs' hcs, if_neg hc]
  cases lines cs <;> rfl

theorem lines_ne_nil (c : Char) (cs : List Char) : lines (c :: cs) ≠ [] := by
  unfold lines
  split
  · next heq => exact absurd heq (List.cons_ne_nil _ _)
  · exact List.cons_ne_nil _ _
  · split
    · exact List.cons_ne_nil _ _
    · split <;> exact List.cons_ne_nil _ _

/-- A line feed ends a line whatever comes after it. -/
theorem lines_append_newline (body more : List Char) :
    lines (body ++ '\n' :: more) = lines (body ++ ['\n']) ++ lines more := by
  have hcons : ∀ (c : Char) (cs : List Char), c ≠ '\n' → (c = '\r' → ∀ cs', cs ≠ '\n' :: cs') →
      lines (cs ++ '\n' :: more) = lines (cs ++ ['\n']) ++ lines more →
      lines (c :: cs ++ '\n' :: more) = lines (c :: cs ++ ['\n']) ++ lines more := by
    intro c cs hc hreturn ih
    cases cs with
    | nil =>
      by_cases hcr : c = '\r'
      · subst hcr
        simp [lines]
      · have hnot : ∀ cs : List Char, c = '\r' → ∀ cs', cs ≠ '\n' :: cs' := fun _ h => absurd h hcr
        simp [lines_cons hc (hnot _), lines]
    | cons d ds =>
      have hnext : ∀ rest : List Char, c = '\r' → ∀ cs', d :: ds ++ rest ≠ '\n' :: cs' := by
        intro rest hcr cs' heq
        exact hreturn hcr ds (by rw [(List.cons.inj heq).1])
      have hne : lines (d :: ds ++ ['\n']) ≠ [] := lines_ne_nil _ _
      show lines (c :: (d :: ds ++ '\n' :: more)) = lines (c :: (d :: ds ++ ['\n'])) ++ lines more
      rw [lines_cons hc (hnext _), lines_cons hc (hnext _), ih]
      obtain ⟨l, ls, hl⟩ := List.exists_cons_of_ne_nil hne
      rw [hl]
      rfl
  induction body using lines.induct with
  | case1 => simp [lines]
  | case2 cs ih => simp [lines, ih]
  | case3 cs h ih => simp [lines, ih]
  | case4 c cs h hc hnil ih => exact hcons c cs hc (fun hcr cs' hcs => h cs' hcr hcs) ih
  | case5 c cs h hc l ls heq ih => exact hcons c cs hc (fun hcr cs' hcs => h cs' hcr hcs) ih

end Text

/-! ## Runs one after the other -/

namespace Run

variable {β γ δ : Type}

theorem andThen_assoc (r : Run β) (f : β → Run γ) (g : γ → Run δ) :
    (r.andThen f).andThen g = r.andThen fun b => (f b).andThen g := by
  obtain ⟨log, e | b⟩ := r
  · rfl
  · simp only [andThen]
    cases (f b).result with
    | error e => rfl
    | ok c => simp

theorem andThen_of_ok {r : Run β} {b : β} (h : r.result = .ok b) (f : β → Run γ) :
    (r.andThen f).result = (f b).result ∧
      (r.andThen f).warnings = r.warnings ++ (f b).warnings := by
  unfold andThen
  rw [h]
  exact ⟨rfl, List.filterMap_append⟩

theorem andThen_of_error {r : Run β} {e : Error} (h : r.result = .error e) (f : β → Run γ) :
    (r.andThen f).result = .error e ∧ (r.andThen f).warnings = r.warnings := by
  unfold andThen
  rw [h]
  exact ⟨rfl, rfl⟩

/-- Two runs warn of the same and then succeed, or fail with the same error. -/
structure SameDiagnostics (r : Run β) (r' : Run γ) : Prop where
  warnings : r.warnings = r'.warnings
  result : r.result.map (fun _ => ()) = r'.result.map (fun _ => ())

theorem SameDiagnostics.refl (r : Run β) : r.SameDiagnostics r := ⟨rfl, rfl⟩

theorem SameDiagnostics.error {r : Run β} {r' : Run γ} (h : r.SameDiagnostics r') {e : Error}
    (he : r.result = .error e) : r'.result = .error e := by
  have hresult := h.result
  rw [he] at hresult
  cases hr' : r'.result with
  | error e' =>
    rw [hr'] at hresult
    exact congrArg _ (Except.error.inj hresult).symm
  | ok c =>
    rw [hr'] at hresult
    exact absurd hresult nofun

theorem SameDiagnostics.ok {r : Run β} {r' : Run γ} (h : r.SameDiagnostics r') {b : β}
    (hb : r.result = .ok b) : ∃ c, r'.result = .ok c := by
  have hresult := h.result
  rw [hb] at hresult
  cases hr' : r'.result with
  | error e =>
    rw [hr'] at hresult
    exact absurd hresult nofun
  | ok c => exact ⟨c, rfl⟩

/-- Runs go on alike if what they come to does. -/
theorem SameDiagnostics.andThen {β' γ' : Type} {r : Run β} {r' : Run γ} (h : r.SameDiagnostics r')
    {f : β → Run β'} {f' : γ → Run γ'}
    (hf : ∀ b c, r.result = .ok b → r'.result = .ok c → (f b).SameDiagnostics (f' c)) :
    (r.andThen f).SameDiagnostics (r'.andThen f') := by
  cases hr : r.result with
  | error e =>
    obtain ⟨hresult, hwarnings⟩ := andThen_of_error hr f
    obtain ⟨hresult', hwarnings'⟩ := andThen_of_error (h.error hr) f'
    exact ⟨by rw [hwarnings, hwarnings', h.warnings], by rw [hresult, hresult']; rfl⟩
  | ok b =>
    obtain ⟨c, hr'⟩ := h.ok hr
    obtain ⟨hresult, hwarnings⟩ := andThen_of_ok hr f
    obtain ⟨hresult', hwarnings'⟩ := andThen_of_ok hr' f'
    have hrest := hf b c hr hr'
    exact ⟨by rw [hwarnings, hwarnings', h.warnings, hrest.warnings],
      by rw [hresult, hresult', hrest.result]⟩

end Run

namespace Program

open Machine

variable {α : Type}

/-! ## Steps as runs -/

/-- A step as the run of its line. -/
def stepRun (number : Nat) (s : Step α) : Run (Machine α) where
  log := s.events.map .event ++ match s.outcome with
    | .ok (some w) => noted number w
    | _ => []
  result := match s.outcome with
    | .error e => .error (e.locate number)
    | .ok _ => .ok s.machine

/-- A step warns of what it reports, and events are no warnings. -/
theorem sameDiagnostics_stepRun {s s' : Step α} (h : s.outcome = s'.outcome) (number : Nat) :
    (stepRun number s).SameDiagnostics (stepRun number s') where
  warnings := by
    have hevents : ∀ s : Step α, (stepRun number s).warnings =
        match s.outcome with
        | .ok (some w) => [⟨number, w⟩]
        | _ => [] := by
      intro s
      unfold Run.warnings stepRun
      rw [List.filterMap_append, List.filterMap_map, List.filterMap_eq_nil_iff.2 ?_,
        List.nil_append]
      · split <;> rfl
      · intro event _
        rfl
    rw [hevents, hevents, h]
  result := by
    unfold stepRun
    rw [h]
    cases s'.outcome <;> rfl

theorem result_stepRun {s : Step α} {number : Nat} {m : Machine α}
    (h : (stepRun number s).result = .ok m) : m = s.machine := by
  unfold stepRun at h
  dsimp only at h
  split at h
  · simp at h
  · exact (Except.ok.inj h).symm

/-! ## Machines that report the same -/

/-- The machines of two runs that report the same from here on. -/
def Follows (m m' : Machine α) : Prop := m.Alike False m' ∧ m.Sound ∧ m'.Sound

/-- Before the first line nothing is active, whatever is declared. -/
theorem follows_start (config : Config α) (lines lines' : List (List Char)) :
    Follows { initial config with carriers := carriersBefore lines }
      { initial config with carriers := carriersBefore lines' } := by
  have hmembers : ∀ lines, (carriersBefore lines).members = [] ∧
      (carriersBefore lines).fromHeader = false := by
    intro lines
    unfold carriersBefore
    split <;> exact ⟨rfl, rfl⟩
  have hget : ∀ lines name, (carriersBefore lines).get? name = none := by
    intro lines name
    simp [Carriers.get?, hmembers]
  have hsound : ∀ lines, Sound { initial config with carriers := carriersBefore lines } := by
    intro lines
    refine ⟨?_, Fabric.wellFormed_empty _⟩
    intro name hname
    simp [Carriers.isActive, hget] at hname
  refine ⟨⟨⟨?_, ?_, ?_⟩, rfl, rfl, .refl _⟩, hsound lines, hsound lines'⟩
  · funext name
    rw [Carriers.standing, Carriers.standing, hget, hget]
  · rw [(hmembers lines).2, (hmembers lines').2]
  · rintro (hfalse | hheader)
    · exact hfalse.elim
    · rw [(hmembers lines).2] at hheader
      simp at hheader

/-! ## Lines without a header -/

variable [Scalar α]

theorem runLines_append_eq (m : Machine α) (number : Nat) (lines more : List (List Char)) :
    runLines m number (lines ++ more) =
      (runLines m number lines).andThen fun m => runLines m (number + lines.length) more := by
  induction lines generalizing m number with
  | nil => rfl
  | cons line rest ih =>
    rw [List.cons_append, runLines, runLines, Run.andThen_assoc, List.length_cons]
    congr 1
    funext m'
    rw [ih, Nat.add_assoc, Nat.add_comm 1]

theorem runLine_of_no_header {line : List Char} (h : header? line = none) (m : Machine α)
    (number : Nat) :
    runLine m number line = match Instruction.parse (code line) with
      | .error e => ⟨[], .error (e.locate number)⟩
      | .ok none => ⟨[], .ok m⟩
      | .ok (some i) => stepRun number (m.execute i) := by
  have hstart : runHeader m number line = (m, []) := by simp [runHeader, h]
  unfold runLine stepRun
  rw [hstart]
  dsimp only
  cases Instruction.parse (code line) with
  | error e => rfl
  | ok parsed =>
    cases parsed with
    | none => rfl
    | some i =>
      dsimp only
      cases (m.execute i).outcome with
      | error e => rw [List.append_nil]; rfl
      | ok w =>
        cases w with
        | none => rw [List.append_nil]; rfl
        | some w => rfl

theorem Follows.execute {m m' : Machine α} (h : Follows m m') (i : Instruction) :
    (m.execute i).outcome = (m'.execute i).outcome ∧
      Follows (m.execute i).machine (m'.execute i).machine := by
  obtain ⟨halike, hm, hm'⟩ := h
  obtain ⟨houtcome, hnext⟩ := halike.execute hm hm' i
  exact ⟨houtcome, hnext, hm.execute i, hm'.execute i⟩

theorem sameDiagnostics_runLine {m m' : Machine α} (h : Follows m m') {line : List Char}
    (hheader : header? line = none) (number : Nat) :
    (runLine m number line).SameDiagnostics (runLine m' number line) ∧
      ∀ n n', (runLine m number line).result = .ok n → (runLine m' number line).result = .ok n' →
        Follows n n' := by
  rw [runLine_of_no_header hheader, runLine_of_no_header hheader]
  cases Instruction.parse (code line) with
  | error e =>
    refine ⟨⟨rfl, rfl⟩, ?_⟩
    intro n n' hn
    exact absurd hn (by simp)
  | ok parsed =>
    cases parsed with
    | none =>
      refine ⟨⟨rfl, rfl⟩, ?_⟩
      intro n n' hn hn'
      obtain rfl := Except.ok.inj hn
      obtain rfl := Except.ok.inj hn'
      exact h
    | some i =>
      obtain ⟨houtcome, hnext⟩ := h.execute i
      refine ⟨sameDiagnostics_stepRun houtcome number, ?_⟩
      intro n n' hn hn'
      rw [result_stepRun hn, result_stepRun hn']
      exact hnext

/-- Lines without a header report the same whatever is declared before they run. -/
theorem sameDiagnostics_runLines {m m' : Machine α} (h : Follows m m') {lines : List (List Char)}
    (hheader : ∀ line ∈ lines, header? line = none) (number : Nat) :
    (runLines m number lines).SameDiagnostics (runLines m' number lines) := by
  induction lines generalizing m m' number with
  | nil => exact ⟨rfl, rfl⟩
  | cons line rest ih =>
    obtain ⟨hline, hnext⟩ := sameDiagnostics_runLine h (hheader line List.mem_cons_self) number
    refine hline.andThen ?_
    intro n n' hn hn'
    exact ih (hnext n n' hn hn') (fun l hl => hheader l (List.mem_cons_of_mem _ hl)) (number + 1)

/-! ## Programs -/

/-- The first lines of a program report what they would as a program of their own. -/
theorem runMachine_append (config : Config α) {lines : List (List Char)} (hne : lines ≠ [])
    (more : List (List Char)) :
    ∃ first : Run (Machine α), (runMachine config lines).SameDiagnostics first ∧
      runMachine config (lines ++ more) =
        first.andThen fun m => runLines m (1 + lines.length) more := by
  have hhead : (lines ++ more).head? = lines.head? := by
    obtain ⟨line, rest, rfl⟩ := List.exists_cons_of_ne_nil hne
    rfl
  have hversion : checkVersion config.maxVersion (lines ++ more) =
      checkVersion config.maxVersion lines := by
    rw [checkVersion, checkVersion, hhead]
  refine ⟨(checkVersion config.maxVersion lines).andThen fun () =>
    runLines { initial config with carriers := carriersBefore (lines ++ more) } 1 lines, ?_, ?_⟩
  · refine (Run.SameDiagnostics.refl _).andThen ?_
    intro _ _ _ _
    by_cases hheader : ∀ line ∈ lines, header? line = none
    · exact sameDiagnostics_runLines (follows_start config _ _) hheader 1
    · -- A header among the first lines is one of the whole program, and nothing is declared.
      have hany : lines.any (fun line => (header? line).isSome) = true := by
        simpa [← Option.isSome_iff_ne_none] using hheader
      have hsame : carriersBefore (lines ++ more) = carriersBefore lines := by
        unfold carriersBefore
        rw [List.any_append, hany, Bool.true_or, if_pos rfl, if_pos rfl]
      rw [hsame]
      exact .refl _
  · rw [runMachine, hversion, Run.andThen_assoc]
    congr 1
    funext _
    exact runLines_append_eq ..

/-- A program that fails names one of its lines. -/
theorem runMachine_error {config : Config α} {lines : List (List Char)} (hne : lines ≠ [])
    {e : Error} (h : (runMachine config lines).result = .error e) :
    ∃ n cause, e = .atLine n cause ∧ 1 ≤ n ∧ n ≤ lines.length := by
  unfold runMachine at h
  cases hversion : (checkVersion config.maxVersion lines).result with
  | error e' =>
    rw [(Run.andThen_of_error hversion _).1] at h
    obtain rfl := Except.error.inj h
    unfold checkVersion at hversion
    split at hversion
    · obtain rfl := Except.error.inj hversion
      exact ⟨1, _, rfl, Nat.le_refl _, List.length_pos_iff.2 hne⟩
    · simp at hversion
  | ok _ =>
    rw [(Run.andThen_of_ok hversion _).1] at h
    obtain ⟨n, cause, rfl, hlo, hhi⟩ := runLines_error h
    exact ⟨n, cause, rfl, hlo, by omega⟩

/-- What is diagnosed in a text that ends with a line does not depend on what comes after it. If it
fails, it fails in the same way with anything after it. If it succeeds, its warnings come first
among those of the longer program, or that fails on a line behind it. -/
theorem diagnostics_of_prefix (config : Config α) (body more : String) :
    let source := body ++ "\n"
    let count := (Text.lines source.toList).length
    match (run config source).result, (run config (source ++ more)).result with
    | .error e, whole => whole = .error e ∧ ∃ n cause, e = .atLine n cause ∧ 1 ≤ n ∧ n ≤ count
    | .ok out, .ok out' => out.warnings <+: out'.warnings
    | .ok _, .error e => ∃ n cause, e = .atLine n cause ∧ count < n := by
  intro source count
  have hsource : source.toList = body.toList ++ ['\n'] := by simp [source]
  have hlines : Text.lines (source ++ more).toList =
      Text.lines source.toList ++ Text.lines more.toList := by
    rw [String.toList_append, hsource, List.append_assoc]
    exact Text.lines_append_newline ..
  have hne : Text.lines source.toList ≠ [] := by
    rw [hsource]
    cases body.toList <;> exact Text.lines_ne_nil _ _
  obtain ⟨first, hsame, hwhole⟩ := runMachine_append config hne (Text.lines more.toList)
  unfold run
  rw [hlines, hwhole]
  dsimp only
  cases hrun : (runMachine config (Text.lines source.toList)).result with
  | error e =>
    refine ⟨?_, runMachine_error hne hrun⟩
    rw [(Run.andThen_of_error (hsame.error hrun) _).1]
    rfl
  | ok m =>
    obtain ⟨m', hfirst⟩ := hsame.ok hrun
    obtain ⟨hresult, hwarnings⟩ := Run.andThen_of_ok hfirst fun m =>
      runLines m (1 + (Text.lines source.toList).length) (Text.lines more.toList)
    rw [hresult, hwarnings]
    cases hmore : (runLines m' (1 + (Text.lines source.toList).length)
        (Text.lines more.toList)).result with
    | error e =>
      obtain ⟨n, cause, rfl, hlo, -⟩ := runLines_error hmore
      exact ⟨n, cause, rfl, by omega⟩
    | ok m'' =>
      show (runMachine config _).warnings <+: first.warnings ++ _
      rw [hsame.warnings]
      exact List.prefix_append _ _

end Program

end Knitting
