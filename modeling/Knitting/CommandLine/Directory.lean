import Knitting.Text.Line

set_option autoImplicit false

/-! # A directory with files

What the command line does to files, said of a directory that is a list of named contents. A name
with slashes lies in directories below, which are there as long as something is in them. -/

namespace Knitting.CommandLine

/-- Why a file cannot be opened or read. -/
inductive Refusal where
  | notFound
  | notDirectory
  | isDirectory
  /-- Any other reason, with the system's wording and number. -/
  | system (text : String) (number : Nat)
  deriving DecidableEq, Repr

def Refusal.message : Refusal → String
  | notFound => "No such file or directory (os error 2)"
  | notDirectory => "Not a directory (os error 20)"
  | isDirectory => "Is a directory (os error 21)"
  | system text number => text ++ " (os error " ++ toString number ++ ")"

/-- A directory: the contents of its files by their path, a list of names. -/
structure Directory where
  files : List (List String × ByteArray)

namespace Directory

def parts : List Char → List (List Char)
  | [] => [[]]
  | c :: cs =>
    match parts cs with
    | [] => [[c]]
    | p :: ps => if c = '/' then [] :: p :: ps else (c :: p) :: ps

/-- What a path leads to. -/
inductive Place where
  /-- A directory that is there. -/
  | directory
  /-- A file that is there. -/
  | file (path : List String) (contents : ByteArray)
  /-- A name that is free, in a directory that is there. -/
  | free (path : List String)

def contents? (d : Directory) (path : List String) : Option ByteArray :=
  (d.files.find? fun f => f.1 = path).map (·.2)

def hasDirectory (d : Directory) (path : List String) : Bool :=
  path.isEmpty || d.files.any fun f => path.length < f.1.length && path.isPrefixOf f.1

/-- What a path leads to that goes on outside of the directory: there are directories above it, and
nothing else. -/
def leave (rest : List String) : Except Refusal Place :=
  if rest.all fun name => name = "" || name = "." || name = ".." then .ok .directory
  else .error .notFound

/-- Follows the parts of a path from a directory on. -/
def follow (d : Directory) (here : List String) : List String → Except Refusal Place
  | [] => .ok .directory
  | name :: rest =>
    if name = "" || name = "." then d.follow here rest
    else if name = ".." then
      if here.isEmpty then leave rest else d.follow here.dropLast rest
    else
      let path := here ++ [name]
      if d.hasDirectory path then d.follow path rest
      else match d.contents? path with
        | some bytes => if rest.isEmpty then .ok (.file path bytes) else .error .notDirectory
        | none =>
          if rest.isEmpty then .ok (.free path)
          else if rest.all (· = "") then .error .isDirectory
          else .error .notFound

/-- What a path leads to from the directory. A path from the root leads outside. -/
def resolve (d : Directory) (path : String) : Except Refusal Place :=
  match path.toList with
  | [] => .error .notFound
  | '/' :: cs => leave ((parts cs).map String.ofList)
  | cs => d.follow [] ((parts cs).map String.ofList)

def read (d : Directory) (path : String) : Except Refusal ByteArray :=
  match d.resolve path with
  | .ok (.file _ bytes) => .ok bytes
  | .ok .directory => .error .isDirectory
  | .ok (.free _) => .error .notFound
  | .error .isDirectory => .error .notFound
  | .error r => .error r

/-- The directory with the contents of a file at a path. -/
def put (d : Directory) (path : List String) (bytes : ByteArray) : Directory :=
  ⟨(d.files.filter fun f => f.1 ≠ path) ++ [(path, bytes)]⟩

/-- The directory with a file written, which may be new. -/
def write (d : Directory) (path : String) (bytes : ByteArray) : Except Refusal Directory :=
  match d.resolve path with
  | .ok (.file path _) => .ok (d.put path bytes)
  | .ok (.free path) => .ok (d.put path bytes)
  | .ok .directory => .error .isDirectory
  | .error r => .error r

def ofFiles (files : List (String × ByteArray)) : Directory :=
  files.foldl (fun d f =>
    d.put (((parts f.1.toList).map String.ofList).filter fun p => p ≠ "" && p ≠ ".") f.2) ⟨[]⟩

end Directory

end Knitting.CommandLine
