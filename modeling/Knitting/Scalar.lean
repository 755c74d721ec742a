set_option autoImplicit false

/-! # Coordinates and heights

Everything geometric is written over a type of numbers that is left open. A run uses 32-bit
floating-point numbers, whose operations round; an exact type can stand in their place where only
the layout matters. The order is given by one comparison, so that a number can be unordered with
itself, as the floating-point number that is not a number is. -/

namespace Knitting

/-- A type of numbers for coordinates and heights. -/
class Scalar (α : Type) extends Add α, Sub α, Mul α, Div α, Neg α where
  /-- The number nearest to a whole number. -/
  ofInt : Int → α
  /-- Whether a number is at most another. -/
  le : α → α → Bool

namespace Scalar

variable {α : Type} [Scalar α]

/-- The number nearest to a natural number. -/
def ofNat (n : Nat) : α := ofInt (Int.ofNat n)

def lt (a b : α) : Bool := le a b && !le b a

/-- The greater of two numbers; the other one if one of them is not comparable with itself. -/
def max (a b : α) : α :=
  if !le a a then b else if lt a b then b else a

/-- The greatest number of a list, if it has any. -/
def greatest? : List α → Option α
  | [] => none
  | a :: rest => some (rest.foldl max a)

end Scalar

instance : Scalar Float32 where
  ofInt := Float32.ofInt
  le a b := a ≤ b

/-- A point of the yarn: `x` runs along the needles, `y` upward, `z` from the back bed to the front
bed. -/
structure Point (α : Type) where
  x : α
  y : α
  z : α
  deriving DecidableEq, Repr

def Point.sub {α : Type} [Scalar α] (p q : Point α) : Point α := ⟨p.x - q.x, p.y - q.y, p.z - q.z⟩

end Knitting
