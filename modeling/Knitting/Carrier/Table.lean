import Knitting.Carrier.Basic

set_option autoImplicit false

/-! # Declared and active carriers

The declared carriers are a list, and a carrier's place in it is its lane. A header declares them
all at once; without one, each is declared when it is first brought in. The active carriers are
kept by name in no particular order: everything that depends on an order reads them through
`Carriers.active`, which goes by lane. -/

namespace Knitting

/-- The declared and the active carriers. -/
structure Carriers where
  /-- The names of the declared carriers, by lane. -/
  declared : List String
  /-- Whether a header declared them, so that there can be no more. -/
  fromHeader : Bool
  /-- The active carriers, one for each name. -/
  members : List Carrier
  deriving DecidableEq, Repr

namespace Carriers

def empty : Carriers := ⟨[], false, []⟩

instance : Inhabited Carriers := ⟨empty⟩

/-! ## Lanes -/

/-- Adds the names of `more` that a list does not have yet. -/
def appendNew (names more : List String) : List String :=
  more.foldl (fun all name => if all.contains name then all else all ++ [name]) names

/-- Declares the carriers of a header. Only the first header counts; carriers that were declared
before it keep a lane after its own. -/
def declareHeader (t : Carriers) (names : List String) : Carriers × Option Warning :=
  if t.fromHeader then (t, some .repeatedCarrierHeader)
  else ({ t with declared := appendNew names t.declared, fromHeader := true }, none)

/-- Declares a carrier unless it is declared already, which is an error after a header. -/
def declare (t : Carriers) (name : String) : Except Error Carriers :=
  if t.declared.contains name then .ok t
  else if t.fromHeader then .error (.undeclaredCarrier name)
  else .ok { t with declared := t.declared ++ [name] }

/-- Declares carriers one after the other. -/
def declareAll (t : Carriers) : List String → Except Error Carriers
  | [] => .ok t
  | name :: names =>
    match t.declare name with
    | .ok t => t.declareAll names
    | .error e => .error e

def lane? (t : Carriers) (name : String) : Option Lane :=
  (t.declared.idxOf? name).map (Lane.mk · t.declared.length)

/-- The place of a carrier among the lanes; a carrier that is not declared comes last. -/
def laneRank (t : Carriers) (name : String) : Nat :=
  (t.declared.idxOf? name).getD t.declared.length

/-! ## Active carriers -/

def get? (t : Carriers) (name : String) : Option Carrier :=
  t.members.find? fun c => c.name = name

def isActive (t : Carriers) (name : String) : Bool := (t.get? name).isSome

/-- The active carriers in the order of their lanes. -/
def active (t : Carriers) : List Carrier :=
  t.members.mergeSort fun a b => t.laneRank a.name ≤ t.laneRank b.name

/-- Puts a carrier among others, in the place of the one of its name. -/
def putMember (c : Carrier) : List Carrier → List Carrier
  | [] => [c]
  | d :: rest => if d.name = c.name then c :: rest else d :: putMember c rest

def put (t : Carriers) (c : Carrier) : Carriers := { t with members := putMember c t.members }

def update (t : Carriers) (name : String) (f : Carrier → Carrier) : Carriers :=
  { t with members := t.members.map fun c => if c.name = name then f c else c }

def remove (t : Carriers) (name : String) : Carriers :=
  { t with members := t.members.filter fun c => c.name ≠ name }

def removeAll (t : Carriers) (names : List String) : Carriers := names.foldl remove t

/-- Brings a group of carriers in. Nothing changes unless the whole group can be brought in. -/
def bringIn (t : Carriers) (kind : InKind) (names : List String) : Except Error Carriers :=
  match names.find? t.isActive with
  | some name => .error (.alreadyActive name)
  | none =>
    match t.declareAll names with
    | .error e => .error e
    | .ok t => .ok (names.foldl (fun t name => t.put ⟨name, none, some ⟨kind, names⟩⟩) t)

def park (t : Carriers) (names : List String) (last : LastStitch) : Carriers :=
  names.foldl (fun t name => t.update name fun c => { c with last := some last }) t

end Carriers

end Knitting
