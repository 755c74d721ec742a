import Knitting.CommandLine.Arguments
import Knitting.CommandLine.Directory
import Knitting.CommandLine.Log
import Knitting.Json.Encode

set_option autoImplicit false

/-! # The command line

Reads a program from a file, runs it with the standard settings and writes what it builds to another
file. Files are reached through two operations only, so that the same definition runs on the files
of the system and on a directory that is a value. -/

namespace Knitting.CommandLine

/-- Why an invocation failed: what it was at, and the causes, each of the one before it. -/
structure Failure where
  attempt : String
  causes : List String
  deriving DecidableEq, Repr

namespace Failure

/-- A cause with its number, where there are several. -/
def numbered (causes : List String) : List String :=
  match causes with
  | [cause] => ["    " ++ cause]
  | causes => causes.zipIdx.map fun (cause, i) =>
    let number := toString i
    String.ofList (List.replicate (5 - number.length) ' ') ++ number ++ ": " ++ cause

def lines (f : Failure) : List String :=
  ["Error: " ++ f.attempt, "", "Caused by:"] ++ numbered f.causes

end Failure

/-- What an invocation comes to. -/
structure Report where
  exit : Nat
  stdout : String
  stderr : List String

/-- The arguments in one line. -/
def usageLine : String := "Usage: knitout-yarn [OPTIONS] <INPUT> <OUTPUT>"

/-- The explanation of the arguments. -/
def usage : String :=
  "Interpret a knitout file into 3D yarn paths\n\n" ++
  usageLine ++ "\n\n" ++
  "Arguments:\n" ++
  "  <INPUT>   Knitout program to interpret\n" ++
  "  <OUTPUT>  Where to write the result\n\n" ++
  "Options:\n" ++
  "      --format <FORMAT>  [default: text] [possible values: text, json]\n" ++
  "  -h, --help             Print help\n"

/-- What an invocation does with files. -/
structure Files (m : Type → Type) where
  read : String → m (Except Refusal ByteArray)
  write : String → String → m (Except Refusal Unit)

def decode (input : String) (bytes : Except Refusal ByteArray) : Except Failure String :=
  match bytes with
  | .error r => .error ⟨"reading " ++ input, [r.message]⟩
  | .ok bytes =>
    match String.fromUTF8? bytes with
    | some s => .ok s
    | none => .error ⟨"reading " ++ input, ["stream did not contain valid UTF-8"]⟩

def Format.render (o : Output Float32) : Format → String
  | text => recordLines o.yarn.records
  | json => o.toJson.pretty ++ "\n"

def summary (o : Output Float32) : LogLine :=
  ⟨.info, mainTarget,
    toString o.yarn.loopCount ++ " loops from " ++ toString o.carriers.length ++ " carrier(s) in "
      ++ toString o.passes.length ++ " passes (" ++ toString o.kicks ++ " kicks, "
      ++ toString o.warnings.length ++ " warnings)"⟩

/-- Interprets a file: the log, and how it failed if it did. -/
def interpret {m : Type → Type} [Monad m] (files : Files m) (input output : String)
    (format : Format) : m (List LogLine × Option Failure) := do
  match decode input (← files.read input) with
  | .error f => return ([], some f)
  | .ok source =>
    let r := Program.run Config.standard source
    let log := r.log.map LogLine.ofEntry
    match r.result with
    | .error e => return (log, some ⟨"interpreting " ++ input, e.chain.map Error.message⟩)
    | .ok o =>
      let log := log ++ [summary o]
      match ← files.write output (format.render o) with
      | .error refusal => return (log, some ⟨"creating " ++ output, [refusal.message]⟩)
      | .ok () => return (log ++ [⟨.info, mainTarget, "wrote " ++ output⟩], none)

/-- Carries out an invocation with a filter for its log, if one is given. -/
def run {m : Type → Type} [Monad m] (files : Files m) (args : List String)
    (filterSpec : Option String) : m Report := do
  let (filter, complaints) := match filterSpec with
    | none => (Filter.standard, [])
    | some spec => Filter.parse spec
  match Request.ofArguments args with
  | .help => return ⟨0, usage, complaints⟩
  | .misuse => return ⟨2, "", complaints ++ ["error: invalid arguments", "", usageLine]⟩
  | .interpret input output format =>
    let (log, failure) ← interpret files input output format
    let shown := (log.filter filter.shows).map LogLine.text
    match failure with
    | none => return ⟨0, "", complaints ++ shown⟩
    | some f => return ⟨1, "", complaints ++ shown ++ f.lines⟩

def Directory.asFiles : Files (StateM Directory) where
  read path := return (← get).read path
  write path text := do
    match (← get).write path text.toUTF8 with
    | .error r => return .error r
    | .ok d =>
      set d
      return .ok ()

end Knitting.CommandLine
