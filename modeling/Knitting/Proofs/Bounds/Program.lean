import Knitting.Proofs.Bounds.Machine

set_option autoImplicit false

/-! # Attempts at programs

A line is cut at a place counted in bytes, which must not be inside a character. The places at which
lines are cut are those where something was found in them, so they are not. With that every attempt
at a program comes to what the program is said to come to, and its records with it, unless memory
gives out (`Program.never_brought_down`). -/

namespace Knitting

/-! ## Places in a text -/

namespace Text

/-- The number of bytes of a text. -/
def bytes (cs : List Char) : Nat := (cs.map Char.utf8Size).sum

theorem bytes_cons (c : Char) (cs : List Char) : bytes (c :: cs) = c.utf8Size + bytes cs := rfl

theorem bytes_append (cs ds : List Char) : bytes (cs ++ ds) = bytes cs + bytes ds := by
  simp [bytes]

/-- Where in a text a word first occurs, in bytes. -/
def find? (word : List Char) : List Char → Option Nat
  | [] => if word.isEmpty then some 0 else none
  | c :: cs =>
    if word.isPrefixOf (c :: cs) then some 0 else (find? word cs).map (c.utf8Size + ·)

/-- The text up to a place. -/
def tryTake : List Char → Nat → Attempt (List Char)
  | _, 0 => return []
  | [], _ + 1 => .error .slice
  | c :: cs, n + 1 =>
    if c.utf8Size ≤ n + 1 then do
      let rest ← tryTake cs (n + 1 - c.utf8Size)
      return c :: rest
    else .error .slice

/-- The text from a place on. -/
def tryDrop : List Char → Nat → Attempt (List Char)
  | cs, 0 => return cs
  | [], _ + 1 => .error .slice
  | c :: cs, n + 1 =>
    if c.utf8Size ≤ n + 1 then tryDrop cs (n + 1 - c.utf8Size) else .error .slice

/-- The first character of a text ends at or before the end of the text. -/
theorem exists_bytes_cons (c : Char) (cs : List Char) :
    ∃ n, bytes (c :: cs) = n + 1 ∧ c.utf8Size ≤ n + 1 ∧ n + 1 - c.utf8Size = bytes cs := by
  have hpos := c.utf8Size_pos
  have hbytes := bytes_cons c cs
  exact ⟨bytes (c :: cs) - 1, by omega, by omega, by omega⟩

/-- A text can be cut between two characters. -/
theorem tryTake_bytes (cs ds : List Char) : tryTake (cs ++ ds) (bytes cs) = .ok cs := by
  induction cs with
  | nil => cases ds <;> rfl
  | cons c cs ih =>
    obtain ⟨n, hbytes, hsize, hrest⟩ := exists_bytes_cons c cs
    rw [hbytes, List.cons_append, tryTake, if_pos hsize, hrest, ih]
    rfl

theorem tryDrop_bytes (cs ds : List Char) : tryDrop (cs ++ ds) (bytes cs) = .ok ds := by
  induction cs with
  | nil => cases ds <;> rfl
  | cons c cs ih =>
    obtain ⟨n, hbytes, hsize, hrest⟩ := exists_bytes_cons c cs
    rw [hbytes, List.cons_append, tryDrop, if_pos hsize, hrest, ih]

/-- Where a word occurs first, the text is cut into what stands before and after it. -/
theorem find?_after? (word cs : List Char) :
    find? word cs = none ∧ after? word cs = none ∨
      ∃ before rest, cs = before ++ word ++ rest ∧ find? word cs = some (bytes before) ∧
        after? word cs = some rest := by
  have hprefix : ∀ cs : List Char, word.isPrefixOf cs = true →
      cs = [] ++ word ++ cs.drop word.length := by
    intro cs h
    obtain ⟨rest, rfl⟩ := List.isPrefixOf_iff_prefix.1 h
    simp
  induction cs with
  | nil =>
    unfold find? after?
    cases hword : word.isEmpty with
    | true =>
      rw [List.isEmpty_iff.1 hword]
      exact .inr ⟨[], [], rfl, rfl, rfl⟩
    | false => exact .inl ⟨rfl, rfl⟩
  | cons c cs ih =>
    unfold find? after?
    by_cases h : word.isPrefixOf (c :: cs) = true
    · rw [if_pos h, if_pos h]
      exact .inr ⟨[], _, hprefix _ h, rfl, rfl⟩
    · rw [if_neg h, if_neg h]
      rcases ih with ⟨hfind, hafter⟩ | ⟨before, rest, rfl, hfind, hafter⟩
      · exact .inl ⟨by rw [hfind]; rfl, hafter⟩
      · exact .inr ⟨c :: before, rest, rfl, by rw [hfind]; rfl, hafter⟩

/-- No more lines than `n`, and none of them with more bytes. -/
def Fit (n : Nat) (ls : List (List Char)) : Prop :=
  ls.length ≤ n ∧ ∀ line ∈ ls, bytes line ≤ n

theorem Fit.cons {n n' : Nat} {ls : List (List Char)} (h : Fit n ls) (hn : n < n')
    {line : List Char} (hline : bytes line ≤ n') : Fit n' (line :: ls) := by
  refine ⟨?_, List.forall_mem_cons.2 ⟨hline, ?_⟩⟩
  · rw [List.length_cons]
    exact Nat.succ_le_of_lt (Nat.lt_of_le_of_lt h.1 hn)
  · intro line hmem
    exact (h.2 line hmem).trans (Nat.le_of_lt hn)

theorem fit_lines (cs : List Char) : Fit (bytes cs) (lines cs) := by
  have hlonger : ∀ (c : Char) (cs : List Char), bytes cs < bytes (c :: cs) := by
    intro c cs
    rw [bytes_cons]
    exact Nat.lt_add_of_pos_left c.utf8Size_pos
  induction cs using lines.induct with
  | case1 => exact ⟨Nat.le_refl 0, by simp [lines]⟩
  | case2 cs ih =>
    rw [lines]
    exact ih.cons ((hlonger _ _).trans (hlonger _ _)) (Nat.zero_le _)
  | case3 cs h ih =>
    rw [lines.eq_3 _ cs h, if_pos rfl]
    exact ih.cons (hlonger _ _) (Nat.zero_le _)
  | case4 c cs h hc hnil ih =>
    rw [lines.eq_3 c cs h, if_neg hc, hnil]
    refine (hnil ▸ ih).cons (hlonger _ _) ?_
    rw [bytes_cons, bytes_cons]
    exact Nat.add_le_add_left (Nat.zero_le _) _
  | case5 c cs h hc l ls heq ih =>
    rw [lines.eq_3 c cs h, if_neg hc, heq]
    rw [heq] at ih
    have hl := ih.2 l List.mem_cons_self
    have hlonger := hlonger c cs
    refine ⟨ih.1.trans (Nat.le_of_lt hlonger), List.forall_mem_cons.2 ⟨?_, ?_⟩⟩
    · rw [bytes_cons, bytes_cons]
      exact Nat.add_le_add_left hl _
    · intro line hline
      exact (ih.2 line (List.mem_cons_of_mem l hline)).trans (Nat.le_of_lt hlonger)

end Text

/-! ## Runs one after the other -/

namespace Run

variable {β γ : Type}

def tryAndThen (r : Run β) (f : β → Attempt (Run γ)) : Attempt (Run γ) :=
  match r.result with
  | .error e => return ⟨r.log, .error e⟩
  | .ok b => do
    let next ← f b
    return ⟨r.log ++ next.log, next.result⟩

theorem comes_tryAndThen {P : Nat → Prop} {r : Run β} {f : Nat → β → Attempt (Run γ)}
    {g : β → Run γ}
    (hf : ∀ b, r.result = .ok b →
      Attempt.Comes P (fun room => f room b) (g b) (fun _ => True)) :
    Attempt.Comes P (fun room => r.tryAndThen (f room)) (r.andThen g) (fun _ => True) := by
  unfold tryAndThen andThen
  cases hr : r.result with
  | error e => exact Attempt.comes_ok fun _ _ => trivial
  | ok b => exact ((hf b hr).of fun _ => id).bind (Attempt.comes_ok fun _ _ => trivial)

end Run

namespace Program

open Machine

variable {room : Nat}

/-! ## Parts of a line -/

/-- What stands before the first semicolon of a line. -/
def tryCode (line : List Char) : Attempt (List Char) :=
  match Text.find? [';'] line with
  | none => return line
  | some i => Text.tryTake line i

/-- A semicolon is found where the code of a line ends, or there is none. -/
theorem find?_semicolon (line : List Char) :
    Text.find? [';'] line = none ∧ code line = line ∨
      ∃ rest, line = code line ++ rest ∧ Text.find? [';'] line = some (Text.bytes (code line)) := by
  induction line with
  | nil => exact .inl ⟨rfl, rfl⟩
  | cons c cs ih =>
    by_cases hc : c = ';'
    · subst hc
      exact .inr ⟨';' :: cs, rfl, rfl⟩
    · have hcode : code (c :: cs) = c :: code cs := by
        rw [code, List.takeWhile_cons, if_pos (by simpa using hc)]
        rfl
      have hnot : ¬[';'].isPrefixOf (c :: cs) = true := by
        simpa [List.isPrefixOf] using fun h => hc h.symm
      rw [Text.find?, if_neg hnot, hcode]
      rcases ih with ⟨hfind, hsame⟩ | ⟨rest, hline, hfind⟩
      · exact .inl ⟨by rw [hfind]; rfl, by rw [hsame]⟩
      · exact .inr ⟨rest, by rw [List.cons_append, ← hline], by rw [hfind]; rfl⟩

theorem tryCode_eq_ok (line : List Char) : tryCode line = .ok (code line) := by
  unfold tryCode
  rcases find?_semicolon line with ⟨hfind, hcode⟩ | ⟨rest, hline, hfind⟩
  · rw [hfind, hcode]
    rfl
  · rw [hfind]
    have hcut := Text.tryTake_bytes (code line) rest
    rwa [← hline] at hcut

def tryHeader? (room : Nat) (line : List Char) : Attempt (Option (List String)) :=
  match Text.find? headerMark line with
  | none => return none
  | some i => do
    let start ← Attempt.count room (i + Text.bytes headerMark)
    let names ← Text.tryDrop line start
    return some (Text.words names)

theorem tryHeader?_eq_ok {line : List Char} (hline : Text.bytes line ≤ room) :
    tryHeader? room line = .ok (header? line) := by
  unfold tryHeader? header?
  rcases Text.find?_after? headerMark line with
    ⟨hfind, hafter⟩ | ⟨before, rest, rfl, hfind, hafter⟩
  · rw [hfind, hafter]
    rfl
  · rw [hfind, hafter]
    rw [Text.bytes_append, Text.bytes_append] at hline
    dsimp only
    rw [Attempt.count_eq_ok (by omega), Attempt.ok_bind, ← Text.bytes_append, Text.tryDrop_bytes]
    rfl

/-! ## Instructions -/

def tryOfWords (op : String) (args : List String) : Attempt (Except Error Instruction) :=
  if op = "rack" then
    if args.length ≠ 1 then return .error (.invalidRacking (" ".intercalate args))
    else do
      let token ← Attempt.entry args 0
      return (Racking.parse token).map .rack
  else return Instruction.ofWords op args

theorem tryOfWords_eq_ok (op : String) (args : List String) :
    tryOfWords op args = .ok (Instruction.ofWords op args) := by
  unfold tryOfWords
  split
  · next hop =>
    subst hop
    cases args with
    | nil => rfl
    | cons token more =>
      cases more with
      | nil => rfl
      | cons token' more => rfl
  · rfl

def tryParse (line : List Char) : Attempt (Except Error (Option Instruction)) :=
  match Text.words line with
  | [] => return .ok none
  | op :: args => do
    let parsed ← tryOfWords op args
    return parsed.map some

theorem tryParse_eq_ok (line : List Char) : tryParse line = .ok (Instruction.parse line) := by
  unfold tryParse Instruction.parse
  cases Text.words line with
  | nil => rfl
  | cons op args =>
    dsimp only
    rw [tryOfWords_eq_ok]
    rfl

/-! ## Before the first line -/

def tryBroughtIn (line : List Char) : Attempt (List String) := do
  let parsed ← tryParse (code line)
  return match parsed with
    | .ok (some (.bringIn _ names)) => names
    | _ => []

theorem tryBroughtIn_eq_ok (line : List Char) : tryBroughtIn line = .ok (broughtIn line) := by
  unfold tryBroughtIn broughtIn
  rw [tryParse_eq_ok]
  rfl

def tryFirstUses (room : Nat) (lines : List (List Char)) : Attempt (List String) :=
  lines.foldlM (fun names line => do
    let new ← tryBroughtIn line
    Attempt.store room (Carriers.appendNew names new)) []

theorem comes_tryFirstUses (lines : List (List Char)) :
    Attempt.Comes (fun _ => True) (fun room => tryFirstUses room lines) (firstUses lines)
      (fun room => (firstUses lines).length ≤ room) := by
  have hcomes := Attempt.comes_foldlM (f := fun room names line => do
      let new ← tryBroughtIn line
      Attempt.store room (Carriers.appendNew names new))
    (g := fun names line => Carriers.appendNew names (broughtIn line))
    (fun names room => names.length ≤ room) (l := lines) ?_ []
  · exact hcomes.of fun room _ => Nat.zero_le room
  · intro names line _
    refine Attempt.Comes.after ?_ fun room _ => tryBroughtIn_eq_ok line
    exact Attempt.comes_store _

def tryCarriersBefore (room : Nat) (lines : List (List Char)) :
    Attempt (Except Error Carriers) := do
  let headers ← lines.mapM (tryHeader? room)
  if headers.any Option.isSome then return .ok .empty
  else do
    let names ← tryFirstUses room lines
    Carriers.empty.tryDeclareAll room names

theorem comes_tryCarriersBefore (lines : List (List Char)) :
    Attempt.Comes (fun room => ∀ line ∈ lines, Text.bytes line ≤ room)
      (fun room => tryCarriersBefore room lines) (.ok (carriersBefore lines))
      (fun room => (carriersBefore lines).declared.length ≤ room) := by
  have hany : (lines.map header?).any Option.isSome =
      lines.any fun line => (header? line).isSome := List.any_map
  unfold tryCarriersBefore
  refine Attempt.Comes.after ?_ fun room hlines =>
    Attempt.mapM_eq_ok fun line hline => tryHeader?_eq_ok (hlines line hline)
  simp only [hany]
  cases hheader : lines.any fun line => (header? line).isSome with
  | true =>
    have hbefore : carriersBefore lines = .empty := by rw [carriersBefore, if_pos hheader]
    rw [hbefore]
    exact Attempt.comes_ok fun room _ => Nat.zero_le room
  | false =>
    have hdeclare := declareAll_carriersBefore lines
    have hbefore : (carriersBefore lines).declared = firstUses lines := by
      rw [carriersBefore, if_neg (by rw [hheader]; exact Bool.false_ne_true)]
    rw [hbefore] at hdeclare
    have hcomes := Carriers.comes_tryDeclareAll .empty (firstUses lines)
    rw [hdeclare] at hcomes
    refine ((comes_tryFirstUses lines).of fun _ _ => trivial).bind ?_
    refine hcomes.imp (fun room _ => Nat.zero_le room) ?_
    exact fun room hroom => hroom _ rfl

/-! ## Running -/

variable {α : Type} {m : Machine α}

def tryRunHeader (room : Nat) (m : Machine α) (number : Nat) (line : List Char) :
    Attempt (Machine α × List LogEntry) := do
  match ← tryHeader? room line with
  | none => return (m, [])
  | some names => do
    let (carriers, warning) ← m.carriers.tryDeclareHeader room names
    return ({ m with carriers }, (warning.map (noted number)).getD [])

theorem comes_tryRunHeader (m : Machine α) (number : Nat) (line : List Char) :
    Attempt.Comes (fun room => m.Within room ∧ Text.bytes line ≤ room)
      (fun room => tryRunHeader room m number line) (runHeader m number line)
      (runHeader m number line).1.Within := by
  unfold tryRunHeader runHeader
  refine Attempt.Comes.after ?_ fun room h => tryHeader?_eq_ok h.2
  cases header? line with
  | none => exact Attempt.comes_ok fun _ => And.left
  | some names =>
    have hdeclare := Carriers.comes_tryDeclareHeader m.carriers names
    refine (hdeclare.of fun room h => h.1.declared).bind ?_
    exact Attempt.comes_ok fun room h => ⟨h.1.1.fabric, h.2, h.1.1.closed⟩

variable [Scalar α]

/-- An attempt at a line after `passed` others. -/
def tryRunLine (room : Nat) (m : Machine α) (passed : Nat) (line : List Char) :
    Attempt (Run (Machine α)) := do
  let number ← Attempt.count room (passed + 1)
  let (m, headerLog) ← tryRunHeader room m number line
  let code ← tryCode line
  match ← tryParse code with
  | .error e => return ⟨headerLog, .error (e.locate number)⟩
  | .ok none => return ⟨headerLog, .ok m⟩
  | .ok (some instruction) => do
    let step ← m.tryExecute room instruction
    let log := headerLog ++ step.events.map .event
    return match step.outcome with
      | .error e => ⟨log, .error (e.locate number)⟩
      | .ok none => ⟨log, .ok step.machine⟩
      | .ok (some w) => ⟨log ++ noted number w, .ok step.machine⟩

/-- Whatever machine a run comes to, it is within bounds. -/
def LeavesWithin (room : Nat) (r : Run (Machine α)) : Prop :=
  ∀ m, r.result = .ok m → m.Within room

theorem comes_tryRunLine {config : Config α} (hreach : Reachable config Errorless m)
    (passed : Nat) (line : List Char) :
    Attempt.Comes
      (fun room => m.Within room ∧ passed < room ∧ Text.bytes line ≤ room)
      (fun room => tryRunLine room m passed line) (runLine m (passed + 1) line)
      (fun room => LeavesWithin room (runLine m (passed + 1) line)) := by
  have hheader := reachable_runHeader hreach (passed + 1) line
  unfold tryRunLine runLine
  refine Attempt.Comes.after ?_ fun room ⟨_, hpassed, _⟩ => Attempt.count_eq_ok (by omega)
  refine ((comes_tryRunHeader m (passed + 1) line).of fun room h => ⟨h.1, h.2.2⟩).bind ?_
  generalize runHeader m (passed + 1) line = start at hheader ⊢
  obtain ⟨start, headerLog⟩ := start
  dsimp only at hheader ⊢
  refine Attempt.Comes.after ?_ fun room _ => tryCode_eq_ok line
  refine Attempt.Comes.after ?_ fun room _ => tryParse_eq_ok (code line)
  cases hparse : Instruction.parse (code line) with
  | error e => exact Attempt.comes_ok fun room _ => by simp [LeavesWithin]
  | ok parsed =>
    cases parsed with
    | none =>
      refine Attempt.comes_ok ?_
      rintro room ⟨-, hstart⟩ _ ⟨⟩
      exact hstart
    | some i =>
      have hi : i.InRange := Instruction.IsParsed.inRange ⟨_, hparse⟩
      refine ((comes_tryExecute hheader.ready hi).of fun _ => And.right).bind ?_
      refine Attempt.comes_ok ?_
      rintro room ⟨-, hnext⟩ m' hm'
      dsimp only at hm'
      split at hm'
      · simp at hm'
      · obtain rfl := Except.ok.inj hm'
        exact hnext
      · obtain rfl := Except.ok.inj hm'
        exact hnext

def tryRunLines (room : Nat) (m : Machine α) (passed : Nat) :
    List (List Char) → Attempt (Run (Machine α))
  | [] => return ⟨[], .ok m⟩
  | line :: rest => do
    let r ← tryRunLine room m passed line
    r.tryAndThen fun m => tryRunLines room m (passed + 1) rest

theorem comes_tryRunLines {config : Config α} (hreach : Reachable config Errorless m)
    (passed : Nat) (lines : List (List Char)) :
    Attempt.Comes
      (fun room => m.Within room ∧ passed + lines.length ≤ room ∧
        ∀ line ∈ lines, Text.bytes line ≤ room)
      (fun room => tryRunLines room m passed lines) (runLines m (passed + 1) lines)
      (fun _ => True) := by
  induction lines generalizing m passed with
  | nil => exact Attempt.comes_ok fun _ _ => trivial
  | cons line rest ih =>
    refine ((comes_tryRunLine hreach passed line).of ?_).bind ?_
    · rintro room ⟨hm, hpassed, hlines⟩
      rw [List.length_cons] at hpassed
      exact ⟨hm, by omega, hlines line List.mem_cons_self⟩
    · refine Run.comes_tryAndThen ?_
      intro m' hm'
      refine (ih (reachable_runLine hreach hm') (passed + 1)).of ?_
      rintro room ⟨⟨-, hpassed, hlines⟩, hnext⟩
      rw [List.length_cons] at hpassed
      exact ⟨hnext m' hm', by omega, fun l hl => hlines l (List.mem_cons_of_mem line hl)⟩

def tryRunMachine (room : Nat) (config : Config α) (lines : List (List Char)) :
    Attempt (Run (Machine α)) :=
  (checkVersion config.maxVersion lines).tryAndThen fun () => do
    match ← tryCarriersBefore room lines with
    | .error e => return ⟨[], .error e⟩
    | .ok carriers => tryRunLines room { Machine.initial config with carriers } 0 lines

theorem comes_tryRunMachine (config : Config α) (lines : List (List Char)) :
    Attempt.Comes (fun room => Text.Fit room lines) (fun room => tryRunMachine room config lines)
      (runMachine config lines) (fun _ => True) := by
  refine Run.comes_tryAndThen ?_
  intro _ _
  refine ((comes_tryCarriersBefore lines).of fun room h => h.2).bind ?_
  refine (comes_tryRunLines (.start (declareAll_carriersBefore lines)) 0 lines).of ?_
  rintro room ⟨hfit, hdeclared⟩
  refine ⟨⟨Fabric.within_empty room config.geometry, hdeclared, Nat.zero_le room⟩, ?_, hfit.2⟩
  rw [Nat.zero_add]
  exact hfit.1

/-- An attempt at a program, whose text must fit into memory. -/
def tryRun (room : Nat) (config : Config α) (source : String) : Attempt (Run (Output α)) :=
  if Text.bytes source.toList ≤ room then do
    let r ← tryRunMachine room config (Text.lines source.toList)
    return ⟨r.log, r.result.map fun m => m.output r.warnings⟩
  else .error (.memory (Text.bytes source.toList))

theorem comes_tryRun (config : Config α) (source : String) :
    Attempt.Comes (fun _ => True) (fun room => tryRun room config source) (run config source)
      (fun _ => True) := by
  have hlines := Text.fit_lines source.toList
  refine Attempt.Comes.within ?_
  refine ((comes_tryRunMachine config (Text.lines source.toList)).of ?_).bind ?_
  · rintro room ⟨-, hroom⟩
    exact ⟨hlines.1.trans hroom, fun line hline => (hlines.2 line hline).trans hroom⟩
  · exact Attempt.comes_ok fun _ _ => trivial

/-- An attempt at a program and then at the records of what it has built. -/
def tryBuild (room : Nat) (config : Config α) (source : String) :
    Attempt (Run (Output α) × Except Error (List (Record α))) := do
  let r ← tryRun room config source
  match r.result with
  | .error e => return (r, .error e)
  | .ok out => do
    let records ← Attempt.store room out.yarn.records
    return (r, .ok records)

theorem comes_tryBuild (config : Config α) (source : String) :
    Attempt.Comes (fun _ => True) (fun room => tryBuild room config source)
      (run config source, (run config source).result.map fun out => out.yarn.records)
      (fun _ => True) := by
  refine (comes_tryRun config source).bind ?_
  cases (run config source).result with
  | error e => exact Attempt.comes_ok fun _ _ => trivial
  | ok out => exact (Attempt.comes_store _).bind (Attempt.comes_ok fun _ _ => trivial)

/-- Nothing but a lack of memory brings a run down, whatever the text and the settings are: every
entry and every part of a sequence that it asks for is there, no range of keys is upside down, and
no needle index, slot, count or place in a text is out of the numbers of its kind. Memory gives out
only where a sequence is asked for that is longer than there is room for, and there is a room that
is enough for the whole run. -/
theorem never_brought_down (config : Config α) (source : String) :
    let built := (run config source, (run config source).result.map fun out => out.yarn.records)
    (∀ room, (∃ n, room < n ∧ tryBuild room config source = .error (.memory n)) ∨
      tryBuild room config source = .ok built) ∧
    ∃ enough, ∀ room, enough ≤ room → tryBuild room config source = .ok built :=
  ⟨(comes_tryBuild config source).exhausts_or_eq_ok, (comes_tryBuild config source).exists_enough⟩

-- The first needle of all, and a racking beyond the long numbers: there is no slot, but no trap.
example :
    (tryRun 100 (Config.standard : Config Float32) (";!knitout-2\nin A\nknit + f-2147483648 A\n" ++
      "rack 10000000000000000000\nknit + b0 A\n")).isOk = true := by decide +kernel

end Program

end Knitting
