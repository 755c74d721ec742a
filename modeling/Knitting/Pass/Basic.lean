import Knitting.Error
import Knitting.Table

set_option autoImplicit false

/-! # Carriage passes

A pass is one sweep of the carriage: what it does at each slot, at one racking and stitch setting,
in one direction and with one group of carriers. `Pass.absorb?` says when one sweep can do the work
of two. -/

namespace Knitting

/-- One sweep of the carriage. -/
structure Pass where
  kind : PassKind
  slots : Table Int SlotOp
  racking : Float
  stitch : Nat
  direction : Direction
  /-- The carriers that move along, in the order of the instruction. -/
  carriers : List String
  hook : Option HookAction
  gripper : Option GripperAction
  /-- Whether it is there only to move a carrier out of the way. -/
  kick : Bool

namespace Pass

/-- A pass that does one thing at one slot. -/
def single (kind : PassKind) (slot : Int) (op : SlotOp) (racking : Float) (stitch : Nat)
    (direction : Direction) (carriers : List String) : Pass :=
  ⟨kind, Table.empty.insert slot op, racking, stitch, direction, carriers, none, none, false⟩

/-- The first reason why a pass cannot be carried out. -/
def flaw? (p : Pass) : Option PassFlaw :=
  if p.kind.isTransfer && !p.carriers.isEmpty then some (.transferWithYarn p.kind)
  else if p.kind = .knitTuck && (p.hook.isSome || p.gripper.isSome) && p.carriers.isEmpty then
    some .actionWithoutYarn
  else if p.hook = some .bringIn && p.gripper ≠ some .bringIn then some .hookInAlone
  else if p.hook = some .takeOut && p.gripper ≠ some .takeOut then some .hookOutAlone
  else none

def validate (p : Pass) : Except Error Unit :=
  match p.flaw? with
  | some flaw => .error (.invalidPass flaw)
  | none => .ok ()

/-- Whether a pass starts by bringing yarn in. -/
def bringsIn (p : Pass) : Bool := p.hook = some .bringIn || p.gripper = some .bringIn

/-- Whether a pass ends by letting go of yarn or taking it out, so that nothing can follow in the
same sweep. -/
def isClosed (p : Pass) : Bool :=
  p.hook = some .release || p.hook = some .takeOut || p.gripper = some .takeOut

/-- The slot of a pass that works on one slot. -/
def onlySlot? (p : Pass) : Option Int :=
  match p.slots.keys with
  | [slot] => some slot
  | _ => none

/-! ## Absorbing -/

/-- Whether two passes are sweeps of the same sort. -/
def agrees (p q : Pass) : Bool :=
  p.kick = q.kick && p.kind = q.kind && p.racking == q.racking && p.stitch = q.stitch &&
    p.direction = q.direction && p.carriers = q.carriers

/-- Whether a sweep in a direction over the slots of a table comes to `slot` next: it never goes
back. -/
def inSweepOrder (direction : Direction) (slots : Table Int SlotOp) (slot : Int) : Bool :=
  match direction with
  | .right => slots.keys.getLast?.all (· ≤ slot)
  | .left => slots.keys.head?.all (slot ≤ ·)
  | .undirected => true

/-- The slots of a sweep that does `op` at `slot` too, if it can. -/
def addSlot? (direction : Direction) (slots : Table Int SlotOp) (slot : Int) (op : SlotOp) :
    Option (Table Int SlotOp) :=
  if inSweepOrder direction slots slot then
    match slots.get? slot with
    | none => some (slots.insert slot op)
    | some first => (SlotOp.merge? first op).map (slots.insert slot)
  else none

/-- The slots of a sweep that also does what is listed, in that order, if it can. -/
def addSlots? (direction : Direction) (slots : Table Int SlotOp) :
    List (Int × SlotOp) → Option (Table Int SlotOp)
  | [] => some slots
  | (slot, op) :: rest => do addSlots? direction (← addSlot? direction slots slot op) rest

/-- The sweep that does the work of `p` and then that of `q`, if there is one. The slots of `q` are
taken in ascending order. -/
def absorb? (p q : Pass) : Option Pass :=
  if p.isClosed || q.bringsIn || !p.agrees q || (p.hook.isSome && q.hook.isSome) ||
      (p.gripper.isSome && q.gripper.isSome) then
    none
  else
    (addSlots? p.direction p.slots q.slots.entries).map fun slots =>
      { p with slots, hook := p.hook <|> q.hook, gripper := p.gripper <|> q.gripper }

end Pass

end Knitting
