import Knitting.Program

set_option autoImplicit false

/-! # Which log lines are shown

Every log line has a level and a target, the part of the program that it comes from. A filter is a
list of directives separated by commas, each of which shows a target, or everything, up to some
level; of the directives that apply to a line the one with the longest name decides. -/

namespace Knitting.CommandLine

/-- How important a log line is. -/
inductive Level where
  | error
  | warn
  | info
  | debug
  | trace
  deriving DecidableEq, Repr

namespace Level

/-- The place of a level, from the most important on. -/
def rank : Level → Nat
  | error => 1
  | warn => 2
  | info => 3
  | debug => 4
  | trace => 5

/-- The name of a level, as wide as the longest. -/
def label : Level → String
  | error => "ERROR"
  | warn => "WARN "
  | info => "INFO "
  | debug => "DEBUG"
  | trace => "TRACE"

end Level

/-- A log line. -/
structure LogLine where
  level : Level
  target : String
  message : String
  deriving DecidableEq, Repr

def LogLine.text (l : LogLine) : String :=
  "[" ++ l.level.label ++ " " ++ l.target ++ "] " ++ l.message

/-- The target of what the command line itself reports. -/
def mainTarget : String := "knitout_yarn"

def eventTarget : Event → String
  | .moved .. => "knitout_yarn::fabric"
  | .dropped .. => "knitout_yarn::fabric"
  | .merged .. => "knitout_yarn::pass"
  | .kicked .. => "knitout_yarn::pass"
  | .outUnattached .. => "knitout_yarn::pass"
  | .releaseUnattached => "knitout_yarn::pass"

def LogLine.ofEntry : LogEntry → LogLine
  | .warning w =>
    ⟨.warn, "knitout_yarn::interpreter", "line " ++ toString w.line ++ ": " ++ w.warning.message⟩
  | .event e => ⟨.debug, eventTarget e, e.message⟩

/-! ## Filters -/

/-- Up to which level the lines of a target are shown; level zero shows none. -/
structure Directive where
  /-- What the target begins with; nothing for every target. -/
  name : String
  /-- The rank of the last level that is shown. -/
  limit : Nat
  deriving DecidableEq, Repr

/-- A filter of log lines. -/
structure Filter where
  directives : List Directive
  /-- What a message has to contain. -/
  containing : String
  deriving DecidableEq, Repr

/-- The rank of the last level that a word shows; the case of its letters does not matter. -/
def limit? (word : String) : Option Nat :=
  match word.toLower with
  | "off" => some 0
  | "error" => some 1
  | "warn" => some 2
  | "info" => some 3
  | "debug" => some 4
  | "trace" => some 5
  | _ => none

/-- The pieces of a text between the occurrences of a character. -/
def splitAt (sep : Char) : List Char → List (List Char)
  | [] => [[]]
  | c :: cs =>
    match splitAt sep cs with
    | [] => [[c]]
    | p :: ps => if c = sep then [] :: p :: ps else (c :: p) :: ps

def trim (cs : List Char) : List Char := Text.trimEnd (cs.dropWhile Text.isBlank)

/-- The directive of a piece, or the part of it that makes no sense. A name alone, or with nothing
behind its equals sign, shows all levels; a level alone is for every target. -/
def directive (piece : List Char) : Except String Directive :=
  match splitAt '=' piece with
  | [cs] =>
    let word := String.ofList cs
    match limit? word with
    | some limit => .ok ⟨"", limit⟩
    | none => .ok ⟨word, 5⟩
  | [name, cs] =>
    let word := String.ofList (trim cs)
    match limit? word with
    | some limit => .ok ⟨String.ofList name, limit⟩
    | none => if word.isEmpty then .ok ⟨String.ofList name, 5⟩ else .error word
  | _ => .error (String.ofList piece)

/-- What is said about a part of a filter that makes no sense. -/
def complaint (part note : String) : String :=
  "warning: invalid logging spec '" ++ part ++ "'" ++ note ++ ", ignoring it"

/-- The filter that a text describes, and what is said about the parts of it that make no sense.
Without a directive only errors are shown. -/
def Filter.parse (spec : String) : Filter × List String :=
  match splitAt '/' spec.toList with
  | directives :: more =>
    if 2 ≤ more.length then (⟨[⟨"", 1⟩], ""⟩, [complaint spec " (too many '/'s)"])
    else
      let pieces := ((splitAt ',' directives).map trim).filter fun p => !p.isEmpty
      let read := pieces.map directive
      let good := read.filterMap fun r => r.toOption
      let bad := read.filterMap fun
        | .error part => some (complaint part "")
        | .ok _ => none
      let directives := if good.isEmpty then [⟨"", 1⟩] else good
      (⟨directives, String.ofList (more.headD [])⟩, bad)
  | [] => (⟨[⟨"", 1⟩], ""⟩, [])

/-- The filter that holds unless another is given: warnings and errors. -/
def Filter.standard : Filter := ⟨[⟨"", 2⟩], ""⟩

def Filter.shows (f : Filter) (l : LogLine) : Bool :=
  let apt := f.directives.filter fun d => d.name.toList.isPrefixOf l.target.toList
  let byLength := apt.mergeSort fun a b => a.name.utf8ByteSize ≤ b.name.utf8ByteSize
  match byLength.getLast? with
  | none => false
  | some d =>
    l.level.rank ≤ d.limit && (Text.after? f.containing.toList l.message.toList).isSome

end Knitting.CommandLine
