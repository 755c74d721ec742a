set_option autoImplicit false

/-! # Command-line arguments

Two file names in order, and how the result is written. Arguments are looked at from left to right
and the first that is wrong decides, except that a request for help ends the reading there. -/

namespace Knitting.CommandLine

/-- How the result is written. -/
inductive Format where
  | text
  | json
  deriving DecidableEq, Repr

def Format.ofName? (name : String) : Option Format :=
  if name = "text" then some .text else if name = "json" then some .json else none

/-- What the arguments ask for. -/
inductive Request where
  | interpret (input output : String) (format : Format)
  | help
  | misuse
  deriving DecidableEq, Repr

/-- The arguments read so far. -/
structure Reading where
  /-- The file names, of which there are two at most. -/
  files : List String
  format : Option Format
  deriving DecidableEq, Repr

namespace Reading

/-- Takes an argument as a file name; it cannot be empty, and there is no place for a third. -/
def addFile (r : Reading) (arg : String) : Option Reading :=
  if arg.isEmpty || 2 ≤ r.files.length then none else some { r with files := r.files ++ [arg] }

/-- Takes an argument as the name of the format, which can be given once. -/
def setFormat (r : Reading) (name : String) : Option Reading :=
  match r.format, Format.ofName? name with
  | none, some format => some { r with format := some format }
  | _, _ => none

def finish (r : Reading) : Request :=
  match r.files with
  | [input, output] => .interpret input output (r.format.getD .text)
  | _ => .misuse

end Reading

def readFiles (r : Reading) : List String → Request
  | [] => r.finish
  | arg :: rest =>
    match r.addFile arg with
    | some r => readFiles r rest
    | none => .misuse

/-- Reads arguments on. Two hyphens alone make file names of all that follow; a hyphen alone is a
file name. -/
def readArguments (r : Reading) : List String → Request
  | [] => r.finish
  | "--" :: rest => readFiles r rest
  | "--help" :: _ => .help
  | "--format" :: name :: rest =>
    match r.setFormat name with
    | some r => readArguments r rest
    | none => .misuse
  | arg :: rest =>
    match arg.toList with
    | '-' :: '-' :: long =>
      if "format=".toList.isPrefixOf long then
        match r.setFormat (String.ofList (long.drop "format=".length)) with
        | some r => readArguments r rest
        | none => .misuse
      else .misuse
    | '-' :: 'h' :: _ => .help
    | '-' :: _ :: _ => .misuse
    | _ =>
      match r.addFile arg with
      | some r => readArguments r rest
      | none => .misuse

def Request.ofArguments (args : List String) : Request := readArguments ⟨[], none⟩ args

end Knitting.CommandLine
