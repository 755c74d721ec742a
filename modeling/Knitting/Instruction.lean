import Knitting.Carrier.Basic
import Knitting.Needle.Syntax
import Knitting.Text.Blank

set_option autoImplicit false

/-! # Instructions

One line of a program without its comment. The alias of an operation is read as the operation
itself: `drop` is a knit without carriers, `amiss` a tuck without carriers, and `xfer` a split
without carriers. -/

namespace Knitting

/-- What is done at one needle. -/
inductive StitchOp where
  | knit
  | tuck
  | miss
  deriving DecidableEq, Repr, Inhabited

/-- What a line asks for. -/
inductive Instruction where
  | bringIn (kind : InKind) (carriers : List String)
  | releaseHook (carriers : List String)
  /-- Take carriers out, perhaps with the hook. -/
  | takeOut (withHook : Bool) (carriers : List String)
  | stitch (op : StitchOp) (direction : Direction) (needle : Needle) (carriers : List String)
  /-- Move the loops of a needle to another and knit a new one in their place. -/
  | split (direction : Direction) (source target : Needle) (carriers : List String)
  | rack (racking : Float)
  | pause
  | extension (op : String)
  | unsupported (op : String)
  deriving DecidableEq, Repr

namespace Instruction

/-- The argument at a place, or the error that it is missing. -/
def argument (op : String) (args : List String) (i : Nat) (what : Argument) : Except Error String :=
  match args[i]? with
  | some arg => .ok arg
  | none => .error (.missingArgument op what)

/-- The direction of an operation: without carriers it has none. -/
def directed (direction : Direction) (carriers : List String) : Direction :=
  if carriers.isEmpty then .undirected else direction

/-- An operation at one needle, which is the argument at place `i`. -/
def parseStitch (stitchOp : StitchOp) (op : String) (direction : Direction) (args : List String)
    (i : Nat) : Except Error Instruction := do
  let needle ← Needle.parse (← argument op args i .needle)
  let carriers := args.drop (i + 1)
  return .stitch stitchOp (directed direction carriers) needle carriers

/-- An operation at two needles, which are the arguments from place `i` on. -/
def parseSplit (op : String) (direction : Direction) (args : List String) (i : Nat) :
    Except Error Instruction := do
  let source ← Needle.parse (← argument op args i .source)
  let target ← Needle.parse (← argument op args (i + 1) .target)
  let carriers := args.drop (i + 2)
  return .split (directed direction carriers) source target carriers

/-- The direction that comes first among the arguments. -/
def parseDirection (op : String) (args : List String) : Except Error Direction := do
  Direction.parse (← argument op args 0 .direction)

/-- The instruction of an operation and its arguments. -/
def ofWords (op : String) (args : List String) : Except Error Instruction :=
  match op with
  | "in" => .ok (.bringIn .plain args)
  | "inhook" => .ok (.bringIn .hook args)
  | "releasehook" => .ok (.releaseHook args)
  | "out" => .ok (.takeOut false args)
  | "outhook" => .ok (.takeOut true args)
  | "knit" => do parseStitch .knit op (← parseDirection op args) args 1
  | "tuck" => do parseStitch .tuck op (← parseDirection op args) args 1
  | "miss" => do parseStitch .miss op (← parseDirection op args) args 1
  | "drop" => parseStitch .knit op .right args 0
  | "amiss" => parseStitch .tuck op .right args 0
  | "split" => do parseSplit op (← parseDirection op args) args 1
  | "xfer" => parseSplit op .right args 0
  | "rack" =>
    match args with
    | [token] => (Racking.parse token).map .rack
    | _ => .error (.invalidRacking (" ".intercalate args))
  | "pause" => .ok .pause
  | _ =>
    if ['x', '-'].isPrefixOf op.toList then .ok (.extension op) else .ok (.unsupported op)

/-- The instruction of a line without comment; `none` if the line is blank. -/
def parse (line : List Char) : Except Error (Option Instruction) :=
  match Text.words line with
  | [] => .ok none
  | op :: args => (ofWords op args).map some

end Instruction

end Knitting
