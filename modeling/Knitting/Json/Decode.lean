import Knitting.Json.Encode
import Knitting.Json.Reader

set_option autoImplicit false

/-! # Yarn and passes from JSON

A structure is read from an object, whose other fields do not matter, or from an array of exactly
its fields in order. No field of a structure may come twice; in a table the last entry for a key
counts. A field that can be empty may be missing from an object. -/

namespace Knitting

namespace Json

/-! ## Simple values -/

def text? : Json → Option String
  | text raw => unescape? raw
  | _ => none

def bool? : Json → Option Bool
  | bool b => some b
  | _ => none

def reading? : Json → Option Reading
  | number s => (numeral? s).bind Numeral.reading?
  | _ => none

def Reading.nat? (limit : Nat) : Reading → Option Nat
  | natural n => if n < limit then some n else none
  | _ => none

def Reading.index? : Reading → Option Int
  | natural n => if isIndex n then some n else none
  | negative n => if isIndex (-n) then some (-n) else none
  | float _ => none

/-- Any number, in 64 bits. -/
def Reading.toFloat : Reading → Float
  | natural n => Float.ofNat n
  | negative n => -Float.ofNat n
  | float x => x

/-- Any number, in 32 bits. -/
def Reading.toFloat32 : Reading → Float32
  | natural n => Float32.ofNat n
  | negative n => -Float32.ofNat n
  | float x => x.toFloat32

def nat? (limit : Nat) (j : Json) : Option Nat := j.reading?.bind (Reading.nat? limit)

/-- A number of 64 bits that counts or numbers something. -/
def count? (j : Json) : Option Nat := j.nat? (Nat.pow 2 64)

def index? (j : Json) : Option Int := j.reading?.bind Reading.index?

def list? {β : Type} (item? : Json → Option β) : Json → Option (List β)
  | array items => items.mapM item?
  | _ => none

def optional? {β : Type} (value? : Json → Option β) : Option Json → Option (Option β)
  | none => some none
  | some null => some none
  | some j => (value? j).map some

def required? {β : Type} (value? : Json → Option β) (j : Option Json) : Option β := j.bind value?

/-- One of a few names, as a string or as the only field of an object, with nothing in it. -/
def oneOf? {β : Type} (all : List β) (name : β → String) (j : Json) : Option β := do
  let s ← match j with
    | text raw => unescape? raw
    | object [(raw, null)] => unescape? raw
    | _ => none
  all.find? fun b => name b = s

/-! ## Structures and tables -/

/-- The values of the named fields of an object; none may come twice. -/
def pick? (fields : List (String × Json)) : List String → Option (List (Option Json))
  | [] => some []
  | name :: names => do
    let value ← match fields.filter fun f => f.1 = name with
      | [] => some none
      | [f] => some (some f.2)
      | _ => none
    return value :: (← pick? fields names)

def structure? (names : List String) : Json → Option (List (Option Json))
  | object fields => do
    let fields ← fields.mapM fun f => (unescape? f.1).map (·, f.2)
    pick? fields names
  | array items => if items.length = names.length then some (items.map some) else none
  | _ => none

/-- The entries of a table, with keys read from what stands between their quotation marks. -/
def table? {κ ν : Type} [Ord κ] [Std.TransOrd κ] [Std.LawfulEqOrd κ] (key? : String → Option κ)
    (value? : Json → Option ν) : Json → Option (Table κ ν)
  | object fields => do
    let entries ← fields.mapM fun f => do return (← key? f.1, ← value? f.2)
    return Table.ofList entries
  | _ => none

def numberKey? {β : Type} (read? : Reading → Option β) (raw : String) : Option β :=
  ((numeral? raw).bind Numeral.reading?).bind read?

def nameKey? {β : Type} (all : List β) (name : β → String) (raw : String) : Option β := do
  let s ← unescape? raw
  all.find? fun b => name b = s

end Json

open Json

/-! ## Yarn -/

def Direction.ofJson? (j : Json) : Option Direction := oneOf? all name j

/-- A point from exactly three numbers. -/
def Point.ofJson? : Json → Option (Point Float32)
  | .array [x, y, z] => do
    return ⟨(← x.reading?).toFloat32, (← y.reading?).toFloat32, (← z.reading?).toFloat32⟩
  | _ => none

def Loop.ofJson? (j : Json) : Option (Loop Float32) := do
  match ← structure? ["points", "carrier", "direction"] j with
  | [points, carrier, direction] =>
    return ⟨← required? (list? Point.ofJson?) points, ← required? count? carrier,
      ← required? Direction.ofJson? direction⟩
  | _ => none

/-- A row, whose table goes by bed and then by index. -/
def Row.ofJson? (j : Json) : Option (Row Float32) := do
  match ← structure? ["direction", "beds"] j with
  | [direction, beds] =>
    return ⟨← required? Direction.ofJson? direction,
      ← required? (table? (nameKey? Bed.all Bed.name)
        (table? (numberKey? Reading.index?) (list? Loop.ofJson?))) beds⟩
  | _ => none

def Needle.ofJson? (j : Json) : Option Needle := do
  match ← structure? ["bed", "needle"] j with
  | [bed, index] => return ⟨← required? (oneOf? Bed.all Bed.name) bed, ← required? index? index⟩
  | _ => none

def LoopPlace.ofJson? (j : Json) : Option LoopPlace := do
  match ← structure? ["row", "at"] j with
  | [row, needle] => return ⟨← required? count? row, ← required? Needle.ofJson? needle⟩
  | _ => none

/-- A path; it may be without a last loop. -/
def YarnPath.ofJson? (j : Json) : Option (YarnPath Float32) := do
  match ← structure? ["rows", "last"] j with
  | [rows, last] =>
    return ⟨← required? (list? Row.ofJson?) rows, ← optional? LoopPlace.ofJson? last⟩
  | _ => none

def YarnStore.ofJson? (j : Json) : Option (YarnStore Float32) := do
  match ← structure? ["paths"] j with
  | [paths] =>
    return ⟨← required? (table? (numberKey? (Reading.nat? (Nat.pow 2 64))) YarnPath.ofJson?) paths⟩
  | _ => none

def YarnStore.parse? (s : String) : Option (YarnStore Float32) := (Json.parse? s).bind ofJson?

/-! ## Passes -/

/-- A pass; it may be without actions of the hook and the gripper. -/
def Pass.ofJson? (j : Json) : Option Pass := do
  match ← structure?
    ["pass_type", "slots", "racking", "stitch", "direction", "carriers", "hook", "gripper", "kick"]
    j with
  | [kind, slots, racking, stitch, direction, carriers, hook, gripper, kick] =>
    return {
      kind := ← required? (oneOf? PassKind.all PassKind.name) kind
      slots :=
        ← required? (table? (numberKey? Reading.index?) (oneOf? SlotOp.all SlotOp.name)) slots
      racking := (← required? reading? racking).toFloat
      stitch := ← required? (nat? (Nat.pow 2 32)) stitch
      direction := ← required? Direction.ofJson? direction
      carriers := ← required? (list? text?) carriers
      hook := ← optional? (oneOf? HookAction.all HookAction.name) hook
      gripper := ← optional? (oneOf? GripperAction.all GripperAction.name) gripper
      kick := ← required? bool? kick }
  | _ => none

def Pass.parse? (s : String) : Option Pass := (Json.parse? s).bind ofJson?

end Knitting
