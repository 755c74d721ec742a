import Knitting.Error

set_option autoImplicit false

/-! # The yarn hook

There is one hook, and it holds at most one group of carriers. -/

namespace Knitting

/-- The yarn hook and the group it holds, if any. -/
structure Hook where
  /-- The group, in the order in which it was brought in. -/
  held : Option (List String)
  deriving DecidableEq, Repr

namespace Hook

def empty : Hook := ⟨none⟩

instance : Inhabited Hook := ⟨empty⟩

def isEmpty (h : Hook) : Bool := h.held.isNone

def hold (h : Hook) (group : List String) : Except Error Hook :=
  match h.held with
  | some held => .error (.hookBusy group held)
  | none => .ok ⟨some group⟩

/-- The hook after it let go of a group, which must be exactly the one it holds. -/
def release (h : Hook) (group : List String) : Except Error Hook :=
  match h.held with
  | none => .error (.hookEmpty group)
  | some held => if held = group then .ok empty else .error (.hookMismatch group held)

end Hook

end Knitting
