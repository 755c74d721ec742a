import Knitting.Machine
import Knitting.Text.Line

set_option autoImplicit false

/-! # Programs

A program is a text whose first line names the version of the notation. What follows a semicolon on
a line is a comment and has no meaning, with one exception: a comment can declare the carriers. In a
program without such a header the carriers are declared in the order in which they are first brought
in, before the first line runs, so that no lane shifts during the run. -/

namespace Knitting

/-- A line of the run's log. -/
inductive LogEntry where
  | warning (w : LineWarning)
  | event (e : Event)
  deriving DecidableEq, Repr

/-- What a run builds. -/
structure Output (α : Type) where
  carriers : List String
  yarn : YarnStore α
  passes : List Pass
  kicks : Nat
  heights : HeightIndex α
  warnings : List LineWarning

/-- A run: what it logged, and what it came to. -/
structure Run (β : Type) where
  log : List LogEntry
  result : Except Error β

namespace Run

/-- A run continued by another that starts from its result. -/
def andThen {β γ : Type} (r : Run β) (f : β → Run γ) : Run γ :=
  match r.result with
  | .error e => ⟨r.log, .error e⟩
  | .ok b => let next := f b; ⟨r.log ++ next.log, next.result⟩

def warnings {β : Type} (r : Run β) : List LineWarning :=
  r.log.filterMap fun
    | .warning w => some w
    | .event _ => none

end Run

/-- What a machine has built when a run ends, with the warnings of the run. -/
def Machine.output {α : Type} (m : Machine α) (warnings : List LineWarning) : Output α where
  carriers := m.carriers.declared
  yarn := m.fabric.store
  passes := m.schedule.passes
  kicks := m.kicks
  heights := m.fabric.heights
  warnings

namespace Program

/-! ## Parts of a line -/

def code (line : List Char) : List Char := line.takeWhile (· ≠ ';')

/-- What a comment begins with that declares carriers. -/
def headerMark : List Char := ";;Carriers:".toList

/-- The carriers that a line declares, if its comment is a header. -/
def header? (line : List Char) : Option (List String) :=
  (Text.after? headerMark line).map Text.words

def magicMark : List Char := ";!knitout-".toList

/-- The largest version number; every number beyond it counts as this one. -/
def largestVersion : Nat := Nat.pow 2 32 - 1

/-- The version that the first line of a program names. Any decimal digits make a version, but only
ASCII digits spell a number; the others count as the largest one. -/
def version? (firstLine : List Char) : Option Nat :=
  let line := Text.trimEnd firstLine
  let digits := line.drop magicMark.length
  if magicMark.isPrefixOf line && !digits.isEmpty && digits.all Text.isDecimalDigit then
    some (min ((Text.readNat? digits).getD largestVersion) largestVersion)
  else none

/-! ## Before the first line -/

def broughtIn (line : List Char) : List String :=
  match Instruction.parse (code line) with
  | .ok (some (.bringIn _ names)) => names
  | _ => []

/-- The carriers in the order in which lines first bring them in. -/
def firstUses (lines : List (List Char)) : List String :=
  lines.foldl (fun names line => Carriers.appendNew names (broughtIn line)) []

/-- The carriers that are declared before the first line of a program runs. -/
def carriersBefore (lines : List (List Char)) : Carriers :=
  if lines.any fun line => (header? line).isSome then .empty
  else { Carriers.empty with declared := firstUses lines }

/-! ## Running -/

def noted (number : Nat) (w : Warning) : List LogEntry := [.warning ⟨number, w⟩]

variable {α : Type}

/-- Takes over the header of a line, if it is one. -/
def runHeader (m : Machine α) (number : Nat) (line : List Char) : Machine α × List LogEntry :=
  match header? line with
  | none => (m, [])
  | some names =>
    let (carriers, warning) := m.carriers.declareHeader names
    ({ m with carriers }, (warning.map (noted number)).getD [])

variable [Scalar α]

def runLine (m : Machine α) (number : Nat) (line : List Char) : Run (Machine α) :=
  let (m, headerLog) := runHeader m number line
  match Instruction.parse (code line) with
  | .error e => ⟨headerLog, .error (e.locate number)⟩
  | .ok none => ⟨headerLog, .ok m⟩
  | .ok (some instruction) =>
    let step := m.execute instruction
    let log := headerLog ++ step.events.map .event
    match step.outcome with
    | .error e => ⟨log, .error (e.locate number)⟩
    | .ok none => ⟨log, .ok step.machine⟩
    | .ok (some w) => ⟨log ++ noted number w, .ok step.machine⟩

/-- Runs lines, the first of which has the given number. -/
def runLines (m : Machine α) (number : Nat) : List (List Char) → Run (Machine α)
  | [] => ⟨[], .ok m⟩
  | line :: rest => (runLine m number line).andThen fun m => runLines m (number + 1) rest

def checkVersion (maxVersion : Nat) (lines : List (List Char)) : Run Unit :=
  match version? (lines.head?.getD []) with
  | none => ⟨[], .error (.locate 1 .missingMagic)⟩
  | some version =>
    ⟨if maxVersion < version then noted 1 (.newerVersion version maxVersion) else [], .ok ()⟩

/-- Runs the lines of a program up to the machine that they leave. -/
def runMachine (config : Config α) (lines : List (List Char)) : Run (Machine α) :=
  (checkVersion config.maxVersion lines).andThen fun () =>
    runLines { Machine.initial config with carriers := carriersBefore lines } 1 lines

def run (config : Config α) (source : String) : Run (Output α) :=
  let r := runMachine config (Text.lines source.toList)
  ⟨r.log, r.result.map fun m => m.output r.warnings⟩

end Program

end Knitting
