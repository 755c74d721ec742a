set_option autoImplicit false

/-! # What a pass does

The kinds of carriage pass, what can happen at one slot of a pass, and what the yarn hook and the
yarn gripper can do before or after one. -/

namespace Knitting

/-- The kinds of carriage pass. -/
inductive PassKind where
  | knitTuck
  | aMiss
  | split
  | splitViaSliders
  | xfer
  | xferToSliders
  | xferFromSliders
  deriving DecidableEq, Repr, Inhabited

namespace PassKind

def all : List PassKind :=
  [knitTuck, aMiss, split, splitViaSliders, xfer, xferToSliders, xferFromSliders]

/-- The name of a kind of pass in output files and messages. -/
def name : PassKind → String
  | knitTuck => "KnitTuck"
  | aMiss => "AMiss"
  | split => "Split"
  | splitViaSliders => "SplitViaSliders"
  | xfer => "Xfer"
  | xferToSliders => "XferToSliders"
  | xferFromSliders => "XferFromSliders"

/-- Whether passes of a kind only move loops, and so never carry yarn. -/
def isTransfer : PassKind → Bool
  | xfer => true
  | xferToSliders => true
  | xferFromSliders => true
  | _ => false

end PassKind

/-- What happens at one slot of a pass. -/
inductive SlotOp where
  /-- Nothing, if nothing else happens at the slot. -/
  | softMiss
  | missFront
  | missBack
  | tuckFront
  | tuckBack
  | knitFront
  | knitBack
  | xferToBack
  | xferToFront
  | splitToBack
  | splitToFront
  deriving DecidableEq, Repr, Inhabited

namespace SlotOp

def all : List SlotOp :=
  [softMiss, missFront, missBack, tuckFront, tuckBack, knitFront, knitBack, xferToBack,
   xferToFront, splitToBack, splitToFront]

def name : SlotOp → String
  | softMiss => "SoftMiss"
  | missFront => "MissFront"
  | missBack => "MissBack"
  | tuckFront => "TuckFront"
  | tuckBack => "TuckBack"
  | knitFront => "KnitFront"
  | knitBack => "KnitBack"
  | xferToBack => "XferToBack"
  | xferToFront => "XferToFront"
  | splitToBack => "SplitToBack"
  | splitToFront => "SplitToFront"

def code : SlotOp → Nat
  | softMiss => 16
  | missFront => 216
  | missBack => 217
  | tuckFront => 11
  | tuckBack => 12
  | knitFront => 51
  | knitBack => 52
  | xferToBack => 20
  | xferToFront => 30
  | splitToBack => 101
  | splitToFront => 102

def ofCode? (n : Nat) : Option SlotOp := all.find? fun op => op.code = n

theorem mem_all (op : SlotOp) : op ∈ all := by
  cases op <;> simp [all]

/-- Every operation is found again by its code. -/
theorem ofCode?_code (op : SlotOp) : ofCode? op.code = some op := by
  cases op <;> decide

/-- The operation that does `a` and then `b`, if there is one: a soft miss gives way. -/
def merge? : SlotOp → SlotOp → Option SlotOp
  | softMiss, b => some b
  | a, softMiss => some a
  | _, _ => none

/-- Two operations merge exactly when one of them is a soft miss, and then into the other. -/
theorem merge?_eq_some_iff {a b c : SlotOp} :
    merge? a b = some c ↔ (a = softMiss ∧ c = b) ∨ (b = softMiss ∧ c = a) := by
  unfold merge?
  split <;> grind

end SlotOp

/-- What the yarn hook does with a pass. -/
inductive HookAction where
  /-- It brings yarn in before the pass. -/
  | bringIn
  /-- It lets go of its yarn after the pass. -/
  | release
  /-- It takes yarn out after the pass. -/
  | takeOut
  deriving DecidableEq, Repr

namespace HookAction

def all : List HookAction := [bringIn, release, takeOut]

def name : HookAction → String
  | bringIn => "In"
  | release => "Release"
  | takeOut => "Out"

end HookAction

/-- What the yarn gripper does with a pass. -/
inductive GripperAction where
  /-- It hands yarn in before the pass. -/
  | bringIn
  /-- It takes yarn out after the pass. -/
  | takeOut
  deriving DecidableEq, Repr

namespace GripperAction

def all : List GripperAction := [bringIn, takeOut]

def name : GripperAction → String
  | bringIn => "In"
  | takeOut => "Out"

end GripperAction

end Knitting
