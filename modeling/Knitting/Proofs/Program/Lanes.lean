import Knitting.Proofs.Machine.Calls

set_option autoImplicit false

/-! # Lanes over a program

Every stitch of a program is made with the lane that its leader has when the line runs. Without a
header that is its lane in the end, since all carriers are declared before the first line. A header
puts its carriers before those that came in earlier, and so it can move lanes in which yarn lies
already: the lanes are those of the end just if no stitch before the header was made with another
lane than the header leaves (`Program.lanes_final_iff`). -/

namespace Knitting

/-- The lane of a carrier where some are declared. -/
def laneIn (declared : List String) (name : String) : Option Lane :=
  (declared.idxOf? name).map (Lane.mk · declared.length)

/-- Different carriers have different lanes. -/
theorem eq_of_laneIn_index {declared : List String} {name name' : String} {lane lane' : Lane}
    (h : laneIn declared name = some lane) (h' : laneIn declared name' = some lane')
    (hindex : lane.index = lane'.index) : name = name' := by
  obtain ⟨i, hi, rfl⟩ := Option.map_eq_some_iff.1 h
  obtain ⟨i', hi', rfl⟩ := Option.map_eq_some_iff.1 h'
  obtain ⟨hlt, hname, -⟩ := List.idxOf?_eq_some_iff.1 hi
  obtain ⟨hlt', hname', -⟩ := List.idxOf?_eq_some_iff.1 hi'
  subst hindex
  exact hname.symm.trans hname'

/-- Some of a list of calls is a stitch with a lane for the group that a carrier leads. -/
def Stitches (calls : List FabricCall) (name : String) (lane : Lane) : Prop :=
  ∃ knit direction n, ⟨some name, .stitch knit direction n lane⟩ ∈ calls

theorem stitches_append {calls more : List FabricCall} {name : String} {lane : Lane} :
    Stitches (calls ++ more) name lane ↔ Stitches calls name lane ∨ Stitches more name lane := by
  simp only [Stitches, List.mem_append, exists_or]

namespace Program

open Machine

/-- The carrier that leads the group of a line, if the line makes a loop. -/
def leader? (line : List Char) : Option String :=
  match Instruction.parse (code line) with
  | .ok (some i) => i.leader?
  | _ => none

variable {α : Type}

/-- The calls on the fabric that a line makes on a machine that has taken over its header. -/
def lineCalls (m : Machine α) (line : List Char) : List FabricCall :=
  match Instruction.parse (code line) with
  | .ok (some i) => i.calls m.carriers
  | _ => []

theorem stitches_lineCalls_iff {m : Machine α} {line : List Char} {name : String} {lane : Lane} :
    Stitches (lineCalls m line) name lane ↔
      leader? line = some name ∧ laneIn m.carriers.declared name = some lane := by
  unfold lineCalls leader?
  split
  · exact Instruction.mem_calls_iff
  · simp [Stitches]

theorem runHeader_eq_self {m : Machine α} {number : Nat} {line : List Char}
    (h : m.carriers.fromHeader = true ∨ header? line = none) : (runHeader m number line).1 = m := by
  unfold runHeader
  split
  · rfl
  · next names hnames =>
    have hheader : m.carriers.fromHeader = true := h.resolve_right (by simp [hnames])
    simp [Carriers.declareHeader, hheader]

theorem fabric_runHeader (m : Machine α) (number : Nat) (line : List Char) :
    (runHeader m number line).1.fabric = m.fabric := by
  unfold runHeader
  split <;> rfl

variable [Scalar α] {m m' : Machine α} {number : Nat} {line : List Char} {lines : List (List Char)}

/-- A line that is accepted changes the fabric by the calls that it makes. -/
theorem fabric_runLine (h : (runLine m number line).result = .ok m') :
    m'.fabric = ((lineCalls (runHeader m number line).1 line).map (·.operation)).foldl Fabric.apply
      m.fabric := by
  rw [← fabric_runHeader m number line]
  unfold lineCalls
  rcases runLine_eq_ok h with ⟨hparse, rfl⟩ | ⟨i, hparse, hok, rfl⟩
  · rw [hparse]
    rfl
  · rw [hparse]
    exact execute_fabric hok

/-- What is declared after a line was so once its header had been taken over, or the line brings it
in. After a header it can bring nothing in that is new. -/
theorem declared_runLine (h : (runLine m number line).result = .ok m') :
    let start := (runHeader m number line).1.carriers
    m'.carriers.declared = Carriers.appendNew start.declared (broughtIn line) ∧
      m'.carriers.fromHeader = start.fromHeader ∧
      (start.fromHeader = true → broughtIn line ⊆ start.declared) := by
  intro start
  unfold broughtIn
  rcases runLine_eq_ok h with ⟨hparse, rfl⟩ | ⟨i, hparse, hok, rfl⟩
  · rw [hparse]
    exact ⟨rfl, rfl, fun _ => List.nil_subset _⟩
  · have hdeclared := (effect_of_succeeds hok).declared
    rw [hparse]
    cases i <;> exact hdeclared

theorem exists_lane_of_runLine (h : (runLine m number line).result = .ok m') {name : String}
    (hleader : leader? line = some name) :
    ∃ lane, laneIn (runHeader m number line).1.carriers.declared name = some lane := by
  unfold leader? at hleader
  rcases runLine_eq_ok h with ⟨hparse, rfl⟩ | ⟨i, hparse, hok, rfl⟩
  · simp [hparse] at hleader
  · rw [hparse] at hleader
    exact exists_lane_of_succeeds hleader hok

/-! ## The calls of a program -/

/-- The calls on the fabric that lines make on a machine. -/
def callsFrom (m : Machine α) (number : Nat) : List (List Char) → List FabricCall
  | [] => []
  | line :: rest =>
    match (runLine m number line).result with
    | .error _ => []
    | .ok next => lineCalls (runHeader m number line).1 line ++ callsFrom next (number + 1) rest

/-- The calls on the fabric that a program makes. -/
def fabricCalls (config : Config α) (lines : List (List Char)) : List FabricCall :=
  callsFrom { Machine.initial config with carriers := carriersBefore lines } 1 lines

theorem runLines_cons {rest : List (List Char)}
    (h : (runLines m number (line :: rest)).result = .ok m') :
    ∃ next, (runLine m number line).result = .ok next ∧
      (runLines next (number + 1) rest).result = .ok m' ∧
      callsFrom m number (line :: rest) =
        lineCalls (runHeader m number line).1 line ++ callsFrom next (number + 1) rest := by
  obtain ⟨next, hnext, hrest⟩ := Run.andThen_eq_ok h
  exact ⟨next, hnext, hrest, by rw [callsFrom, hnext]⟩

theorem runLines_append {more : List (List Char)}
    (h : (runLines m number (lines ++ more)).result = .ok m') :
    ∃ next number', (runLines m number lines).result = .ok next ∧
      (runLines next number' more).result = .ok m' ∧
      callsFrom m number (lines ++ more) =
        callsFrom m number lines ++ callsFrom next number' more := by
  induction lines generalizing m number with
  | nil => exact ⟨m, number, rfl, h, rfl⟩
  | cons line rest ih =>
    obtain ⟨middle, hline, hrest, hcalls⟩ := runLines_cons h
    obtain ⟨next, number', hnext, hmore, hcalls'⟩ := ih hrest
    refine ⟨next, number', ?_, hmore, ?_⟩
    · rw [runLines, Run.andThen, hline]
      exact hnext
    · have hfirst : callsFrom m number (line :: rest) =
          lineCalls (runHeader m number line).1 line ++ callsFrom middle (number + 1) rest := by
        rw [callsFrom, hline]
      rw [hfirst, List.append_assoc, ← hcalls']
      exact hcalls

/-- A program changes the fabric by the calls that it makes. -/
theorem fabric_runLines (h : (runLines m number lines).result = .ok m') :
    m'.fabric = ((callsFrom m number lines).map (·.operation)).foldl Fabric.apply m.fabric := by
  induction lines generalizing m number with
  | nil =>
    obtain rfl := Except.ok.inj h
    rfl
  | cons line rest ih =>
    obtain ⟨next, hline, hrest, hcalls⟩ := runLines_cons h
    rw [ih hrest, fabric_runLine hline, hcalls, List.map_append, List.foldl_append]

/-! ## Lanes of stitches -/

/-- Where nothing new can be declared any more, every stitch is made with the lane of the end. -/
theorem lanes_of_fixed (h : (runLines m number lines).result = .ok m')
    (hfixed : m.carriers.fromHeader = true ∨
      ∀ line ∈ lines, header? line = none ∧ broughtIn line ⊆ m.carriers.declared) :
    m'.carriers.declared = m.carriers.declared ∧
      ∀ name lane, Stitches (callsFrom m number lines) name lane →
        laneIn m.carriers.declared name = some lane := by
  induction lines generalizing m number with
  | nil =>
    obtain rfl := Except.ok.inj h
    exact ⟨rfl, fun name lane ⟨_, _, _, hmem⟩ => absurd hmem (List.not_mem_nil)⟩
  | cons line rest ih =>
    obtain ⟨next, hline, hrest, hcalls⟩ := runLines_cons h
    have hstart : (runHeader m number line).1 = m :=
      runHeader_eq_self (hfixed.imp_right fun hlines => (hlines line List.mem_cons_self).1)
    obtain ⟨hdeclared, hheader, hbrings⟩ := declared_runLine hline
    rw [hstart] at hdeclared hheader hbrings hcalls
    have hknown : broughtIn line ⊆ m.carriers.declared :=
      hfixed.elim hbrings fun hlines => (hlines line List.mem_cons_self).2
    have hsame : next.carriers.declared = m.carriers.declared := by
      rw [hdeclared, Carriers.appendNew_eq_self hknown]
    obtain ⟨hend, hlanes⟩ := ih hrest (by
      rw [hheader, hsame]
      exact hfixed.imp_right fun hlines l hl => hlines l (List.mem_cons_of_mem _ hl))
    rw [hsame] at hend hlanes
    refine ⟨hend, ?_⟩
    intro name lane hstitch
    rw [hcalls, stitches_append, stitches_lineCalls_iff] at hstitch
    exact hstitch.elim (·.2) (hlanes name lane)

/-- A carrier leads a stitch on the line that comes after some first lines. -/
def LeadsAfter (lines done : List (List Char)) (name : String) : Prop :=
  ∃ line more, lines = done ++ line :: more ∧ leader? line = some name

theorem leadsAfter_cons {rest done : List (List Char)} {name : String} :
    LeadsAfter (line :: rest) done name ↔
      (done = [] ∧ leader? line = some name) ∨
        ∃ done', done = line :: done' ∧ LeadsAfter rest done' name := by
  constructor
  · rintro ⟨line', more, hlines, hleader⟩
    cases done with
    | nil =>
      obtain ⟨rfl, -⟩ := List.cons.inj hlines
      exact .inl ⟨rfl, hleader⟩
    | cons first done' =>
      obtain ⟨rfl, hrest⟩ := List.cons.inj hlines
      exact .inr ⟨done', rfl, line', more, hrest, hleader⟩
  · rintro (⟨rfl, hleader⟩ | ⟨done', rfl, line', more, rfl, hleader⟩)
    · exact ⟨line, rest, rfl, hleader⟩
    · exact ⟨line', more, rfl, hleader⟩

/-- What is declared once some lines have run without a header. -/
def declaredAfter (declared : List String) (lines : List (List Char)) : List String :=
  lines.foldl (fun names line => Carriers.appendNew names (broughtIn line)) declared

/-- Without a header every stitch is made with a lane among the carriers that came in so far. -/
theorem lanes_without_header (h : (runLines m number lines).result = .ok m')
    (hheader : ∀ line ∈ lines, header? line = none) :
    (m'.carriers.declared = declaredAfter m.carriers.declared lines ∧
      m'.carriers.fromHeader = m.carriers.fromHeader) ∧
    (∀ name lane, Stitches (callsFrom m number lines) name lane ↔
      ∃ done, LeadsAfter lines done name ∧
        laneIn (declaredAfter m.carriers.declared done) name = some lane) ∧
    ∀ done name, LeadsAfter lines done name →
      ∃ lane, laneIn (declaredAfter m.carriers.declared done) name = some lane := by
  induction lines generalizing m number with
  | nil =>
    obtain rfl := Except.ok.inj h
    refine ⟨⟨rfl, rfl⟩, ?_, ?_⟩
    · intro name lane
      simp [Stitches, callsFrom, LeadsAfter]
    · rintro done name ⟨line, more, hlines, -⟩
      simp at hlines
  | cons line rest ih =>
    obtain ⟨next, hline, hrest, hcalls⟩ := runLines_cons h
    have hstart : (runHeader m number line).1 = m :=
      runHeader_eq_self (.inr (hheader line List.mem_cons_self))
    obtain ⟨hdeclared, hfrom, -⟩ := declared_runLine hline
    have hexists : ∀ {name}, leader? line = some name → ∃ lane, _ := fun hleader =>
      exists_lane_of_runLine hline hleader
    rw [hstart] at hdeclared hfrom hcalls hexists
    obtain ⟨⟨hend, hend'⟩, hlanes, hleaders⟩ := ih hrest fun l hl =>
      hheader l (List.mem_cons_of_mem _ hl)
    rw [hdeclared] at hend hlanes hleaders
    refine ⟨⟨hend, hend'.trans hfrom⟩, ?_, ?_⟩
    · intro name lane
      rw [hcalls, stitches_append, stitches_lineCalls_iff, hlanes]
      constructor
      · rintro (⟨hleader, hlane⟩ | ⟨done, hleads, hlane⟩)
        · exact ⟨[], leadsAfter_cons.2 (.inl ⟨rfl, hleader⟩), hlane⟩
        · exact ⟨line :: done, leadsAfter_cons.2 (.inr ⟨done, rfl, hleads⟩), hlane⟩
      · rintro ⟨done, hleads, hlane⟩
        rcases leadsAfter_cons.1 hleads with ⟨rfl, hleader⟩ | ⟨done, rfl, hlater⟩
        · exact .inl ⟨hleader, hlane⟩
        · exact .inr ⟨done, hlater, hlane⟩
    · intro done name hleads
      rcases leadsAfter_cons.1 hleads with ⟨rfl, hleader⟩ | ⟨done, rfl, hlater⟩
      · exact hexists hleader
      · exact hleaders done name hlater

/-- The line of the first header and all that follow find declared what is in the end. -/
theorem lanes_from_header {header : List Char} {after : List (List Char)} {names : List String}
    (hheader : header? header = some names) (hfirst : m.carriers.fromHeader = false)
    (h : (runLines m number (header :: after)).result = .ok m') :
    m'.carriers.declared = Carriers.appendNew names m.carriers.declared ∧
      ∀ name lane, Stitches (callsFrom m number (header :: after)) name lane →
        laneIn m'.carriers.declared name = some lane := by
  obtain ⟨next, hline, hafter, hcalls⟩ := runLines_cons h
  have hstart : (runHeader m number header).1.carriers.declared =
        Carriers.appendNew names m.carriers.declared ∧
      (runHeader m number header).1.carriers.fromHeader = true := by
    simp [runHeader, hheader, Carriers.declareHeader, hfirst]
  obtain ⟨hnext, hfrom, hknown⟩ := declared_runLine hline
  rw [Carriers.appendNew_eq_self (hknown hstart.2)] at hnext
  obtain ⟨hend, hlater⟩ := lanes_of_fixed hafter (.inl (hfrom.trans hstart.2))
  refine ⟨(hend.trans hnext).trans hstart.1, ?_⟩
  intro name lane hstitch
  rw [hcalls, stitches_append, stitches_lineCalls_iff, ← hnext, ← hend] at hstitch
  rw [← hend] at hlater
  exact hstitch.elim (·.2) (hlater name lane)

/-! ## Programs -/

/-- The lines of a program before its first header. -/
def beforeHeader (lines : List (List Char)) : List (List Char) :=
  lines.takeWhile fun line => (header? line).isNone

/-- The lanes of a program are settled if its first header leaves every carrier that led a stitch
on an earlier line in the lane in which it did. They are if nothing was stitched before, and if the
program has no header. -/
def LanesSettled (lines : List (List Char)) : Prop :=
  ∀ names, lines.findSome? header? = some names →
    ∀ done name, LeadsAfter (beforeHeader lines) done name →
      laneIn (Carriers.appendNew names (firstUses (beforeHeader lines))) name =
        laneIn (firstUses done) name

theorem broughtIn_subset_declaredAfter {declared : List String} (hline : line ∈ lines) :
    broughtIn line ⊆ declaredAfter declared lines := by
  induction lines generalizing declared with
  | nil => simp at hline
  | cons first rest ih =>
    have hkept : ∀ {names}, names ⊆ declaredAfter names rest := by
      intro names
      exact List.foldlRecOn rest _ (motive := (names ⊆ ·)) (List.Subset.refl names)
        fun _ h _ _ _ hmem => Carriers.mem_appendNew.2 (.inl (h hmem))
    rcases List.mem_cons.1 hline with rfl | hrest
    · exact fun name hname => hkept (Carriers.mem_appendNew.2 (.inr hname))
    · exact ih hrest

theorem eq_ok_of_toOption {ε β : Type} {r : Except ε β} {b : β} (h : r.toOption = some b) :
    r = .ok b := by
  cases r with
  | error e => exact absurd h nofun
  | ok c => exact congrArg _ (Option.some.inj h)

theorem run_eq_ok {config : Config α} {source : String} {out : Output α}
    (h : (run config source).result = .ok out) :
    let lines := Text.lines source.toList
    ∃ m,
      (runLines { Machine.initial config with carriers := carriersBefore lines } 1 lines).result =
        .ok m ∧ out = m.output (runMachine config lines).warnings := by
  intro lines
  unfold run at h
  dsimp only at h
  cases hrun : (runMachine config lines).result with
  | error e => simp [lines, hrun, Except.map] at h
  | ok m =>
    obtain ⟨_, -, hlines⟩ := Run.andThen_eq_ok hrun
    have hout : m.output (runMachine config lines).warnings = out := by
      simpa [lines, hrun, Except.map] using h
    exact ⟨m, hlines, hout.symm⟩

theorem declared_carriersBefore (hheader : ∀ line ∈ lines, header? line = none) :
    (carriersBefore lines).declared = firstUses lines := by
  have hany : lines.any (fun line => (header? line).isSome) = false := by simpa using hheader
  simp [carriersBefore, hany]

/-- Without a header no line finds anything to declare. -/
theorem fixed_of_no_header (hheader : ∀ line ∈ lines, header? line = none)
    (hline : line ∈ lines) :
    header? line = none ∧ broughtIn line ⊆ (carriersBefore lines).declared :=
  ⟨hheader line hline, declared_carriersBefore hheader ▸ broughtIn_subset_declaredAfter hline⟩

/-- Without a header all carriers are declared before the first line, and no lane shifts. -/
theorem lanes_final_of_no_header {config : Config α}
    (h : (runLines { Machine.initial config with carriers := carriersBefore lines } 1
      lines).result = .ok m)
    (hheader : ∀ line ∈ lines, header? line = none) {name : String} {lane : Lane}
    (hstitch : Stitches (fabricCalls config lines) name lane) :
    laneIn m.carriers.declared name = some lane := by
  obtain ⟨hend, hlanes⟩ := lanes_of_fixed h (.inr fun _ hline => fixed_of_no_header hheader hline)
  rw [hend]
  exact hlanes name lane hstitch

/-- With a header the lanes are those of the end just if the header moves no lane of a stitch. -/
theorem lanes_final_of_header {config : Config α} {before after : List (List Char)}
    {header : List Char} {names : List String} (hlines : lines = before ++ header :: after)
    (hbefore : ∀ line ∈ before, header? line = none) (hheader : header? header = some names)
    (h : (runLines { Machine.initial config with carriers := carriersBefore lines } 1
      lines).result = .ok m) :
    m.carriers.declared = Carriers.appendNew names (firstUses before) ∧
      ((∀ name lane, Stitches (fabricCalls config lines) name lane →
        laneIn m.carriers.declared name = some lane) ↔
      ∀ done name, LeadsAfter before done name →
        laneIn m.carriers.declared name = laneIn (firstUses done) name) := by
  have hempty : carriersBefore lines = .empty := by
    have hany : lines.any (fun line => (header? line).isSome) = true := by
      simp [hlines, hheader]
    simp [carriersBefore, hany]
  unfold fabricCalls
  rw [hempty] at h ⊢
  subst hlines
  obtain ⟨middle, number, hfirst, hrest, hcalls⟩ := runLines_append h
  obtain ⟨⟨hmiddle, hfrom⟩, hlanes, hleaders⟩ := lanes_without_header hfirst hbefore
  obtain ⟨hend, hlater⟩ := lanes_from_header hheader hfrom hrest
  rw [hmiddle] at hend
  refine ⟨hend, ?_⟩
  constructor
  · intro hall done name hleads
    obtain ⟨lane, hlane⟩ := hleaders done name hleads
    have hstitch := (hlanes name lane).2 ⟨done, hleads, hlane⟩
    rw [hall name lane (hcalls ▸ stitches_append.2 (.inl hstitch))]
    exact hlane.symm
  · intro hkept name lane hstitch
    rw [hcalls, stitches_append] at hstitch
    rcases hstitch with hstitch | hstitch
    · obtain ⟨done, hleads, hlane⟩ := (hlanes name lane).1 hstitch
      exact (hkept done name hleads).trans hlane
    · exact hlater name lane hstitch

theorem beforeHeader_append {before after : List (List Char)} {header : List Char}
    {names : List String} (hbefore : ∀ line ∈ before, header? line = none)
    (hheader : header? header = some names) :
    beforeHeader (before ++ header :: after) = before := by
  rw [beforeHeader, List.takeWhile_append_of_pos (by simpa using hbefore)]
  simp [hheader]

/-- The lanes of a program that is accepted are those of the end just if they are settled. Then the
stitches that a carrier leads are all in one path, and no other carrier leads stitches in it. -/
theorem lanes_final_iff {config : Config α} {source : String} {out : Output α}
    (h : (run config source).result = .ok out) :
    let lines := Text.lines source.toList
    let calls := fabricCalls config lines
    out.yarn = (Fabric.run config.geometry (calls.map (·.operation))).store ∧
      ((∀ name lane, Stitches calls name lane → laneIn out.carriers name = some lane) ↔
        LanesSettled lines) ∧
      (LanesSettled lines → ∀ name lane name' lane', Stitches calls name lane →
        Stitches calls name' lane' → (lane.index = lane'.index ↔ name = name')) := by
  intro lines calls
  obtain ⟨m, hrun, rfl⟩ := run_eq_ok h
  have hiff : (∀ name lane, Stitches calls name lane →
      laneIn m.carriers.declared name = some lane) ↔ LanesSettled lines := by
    unfold LanesSettled
    cases hfirst : lines.findSome? header? with
    | none =>
      rw [List.findSome?_eq_none_iff] at hfirst
      exact iff_of_true (fun name lane => lanes_final_of_no_header hrun hfirst) nofun
    | some names =>
      obtain ⟨before, header, after, hlines, hheader, hbefore⟩ :=
        List.findSome?_eq_some_iff.1 hfirst
      obtain ⟨hend, hlanes⟩ := lanes_final_of_header hlines hbefore hheader hrun
      rw [hlanes, hend, hlines, beforeHeader_append hbefore hheader]
      exact ⟨fun hkept _ hnames => Option.some.inj hnames ▸ hkept,
        fun hsettled => hsettled names rfl⟩
  refine ⟨?_, hiff, ?_⟩
  · show m.fabric.store = _
    rw [fabric_runLines hrun]
    rfl
  · intro hsettled name lane name' lane' hstitch hstitch'
    have hlane := hiff.2 hsettled name lane hstitch
    have hlane' := hiff.2 hsettled name' lane' hstitch'
    constructor
    · exact eq_of_laneIn_index hlane hlane'
    · rintro rfl
      rw [Option.some.inj (hlane.symm.trans hlane')]

/-- The lanes are settled by a header that stands before all stitches. -/
theorem lanes_settled_by_early_header :
    let source := ";!knitout-2\n;;Carriers: 2 1\nin 1\nknit + f0 1\nout 1\nin 2\nknit + f1 2\n"
    ∃ out : Output Float32, (run .standard source).result = .ok out ∧ out.carriers = ["2", "1"] ∧
      ∀ name lane,
        Stitches (fabricCalls (.standard : Config Float32) (Text.lines source.toList)) name lane →
          laneIn out.carriers name = some lane := by
  intro source
  have hrun : ((run (.standard : Config Float32) source).result.toOption.map (·.carriers)) =
      some ["2", "1"] := by decide +kernel
  obtain ⟨out, hout, hcarriers⟩ := Option.map_eq_some_iff.1 hrun
  have hok := eq_ok_of_toOption hout
  refine ⟨out, hok, hcarriers, (lanes_final_iff hok).2.1.2 ?_⟩
  have hmagic : ∀ line ∈ beforeHeader (Text.lines source.toList), leader? line = none := by
    decide +kernel
  rintro names - done name ⟨line, more, hsplit, hleader⟩
  have hline : line ∈ beforeHeader (Text.lines source.toList) :=
    hsplit ▸ List.mem_append_right _ List.mem_cons_self
  simp [hmagic line hline] at hleader

/-- A header after a stitch can move the carrier of that stitch to another lane, and another carrier
then stitches in the path that it has left. -/
theorem late_header_shifts_lanes :
    (¬∀ (config : Config Float32) (source : String) (out : Output Float32),
      (run config source).result = .ok out →
      ∀ name lane, Stitches (fabricCalls config (Text.lines source.toList)) name lane →
        laneIn out.carriers name = some lane) ∧
    ¬∀ (config : Config Float32) (source : String) (out : Output Float32),
      (run config source).result = .ok out →
      ∀ name lane name' lane', Stitches (fabricCalls config (Text.lines source.toList)) name lane →
        Stitches (fabricCalls config (Text.lines source.toList)) name' lane' →
        lane.index = lane'.index → name = name' := by
  let source := ";!knitout-2\nin 1\nknit + f0 1\nout 1\n;;Carriers: 2 1\nin 2\nknit + f1 2\n"
  have hrun : ((run (.standard : Config Float32) source).result.toOption.map (·.carriers)) =
      some ["2", "1"] := by decide +kernel
  have hcalls : fabricCalls (.standard : Config Float32) (Text.lines source.toList) =
      [⟨some "1", .stitch true .right ⟨.front, 0⟩ ⟨0, 1⟩⟩,
        ⟨some "2", .stitch true .right ⟨.front, 1⟩ ⟨0, 2⟩⟩] := by decide +kernel
  obtain ⟨out, hout, hcarriers⟩ := Option.map_eq_some_iff.1 hrun
  have hok := eq_ok_of_toOption hout
  have hone : Stitches (fabricCalls (.standard : Config Float32) (Text.lines source.toList)) "1"
      ⟨0, 1⟩ := ⟨true, .right, ⟨.front, 0⟩, by simp [hcalls]⟩
  have htwo : Stitches (fabricCalls (.standard : Config Float32) (Text.lines source.toList)) "2"
      ⟨0, 2⟩ := ⟨true, .right, ⟨.front, 1⟩, by simp [hcalls]⟩
  constructor
  · intro hfinal
    have hlane := hfinal _ _ _ hok "1" ⟨0, 1⟩ hone
    rw [hcarriers] at hlane
    exact absurd hlane (by decide)
  · intro hpaths
    exact absurd (hpaths _ _ _ hok _ _ _ _ hone htwo rfl) (by decide)

end Program

end Knitting
