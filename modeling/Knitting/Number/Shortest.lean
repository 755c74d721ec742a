import Knitting.Number.Binary

set_option autoImplicit false

/-! # The shortest decimal that reads back

A decimal `d · 10 ^ e` reads back as a binary number exactly when it lies between the midpoints to
that number's two neighbours, the midpoints included if the mantissa is even. The shortest one is
found on the coarsest grid of multiples of `10 ^ e` that meets this interval: if any point of a
grid lies in it, then so does one of the two grid points next to the number itself
(`Binary.pick?`). All comparisons are made between whole numbers. -/

namespace Knitting.Number

/-- The decimal number `digits · 10 ^ exponent`. -/
structure Decimal where
  digits : Nat
  /-- The power of ten of the last digit. -/
  exponent : Int
  deriving DecidableEq, Repr

/-- Which of two equally near decimals is taken. -/
inductive Tie where
  /-- The greater one. -/
  | up
  /-- The one whose last digit is even. -/
  | even
  deriving DecidableEq, Repr

namespace Binary

/-- What a quarter of a unit of the last place counts on the grid of multiples of `10 ^ e`, when a
grid step counts `gridStep b e`. -/
def quarter (b : Binary) (e : Int) : Nat :=
  Nat.pow 2 (b.exponent - 2).toNat * Nat.pow 10 (-e).toNat

/-- What a step of the grid of multiples of `10 ^ e` counts. -/
def gridStep (b : Binary) (e : Int) : Nat :=
  Nat.pow 2 (2 - b.exponent).toNat * Nat.pow 10 e.toNat

/-- Whether `c · 10 ^ e` reads back as `b`. -/
def readsBack (b : Binary) (e : Int) (c : Nat) : Bool :=
  let low := (4 * b.mantissa - if b.narrow then 1 else 2) * b.quarter e
  let high := (4 * b.mantissa + 2) * b.quarter e
  let here := c * b.gridStep e
  if b.mantissa % 2 = 0 then low ≤ here && here ≤ high else low < here && here < high

/-- The point of the grid of multiples of `10 ^ e` that is nearest to `b` among those that read
back as `b`, if there is one. -/
def pick? (tie : Tie) (b : Binary) (e : Int) : Option Nat :=
  let value := 4 * b.mantissa * b.quarter e
  let step := b.gridStep e
  let below := value / step
  match b.readsBack e below, b.readsBack e (below + 1) with
  | false, false => none
  | true, false => some below
  | false, true => some (below + 1)
  | true, true =>
    match compare (2 * value) ((2 * below + 1) * step), tie with
    | .lt, _ => some below
    | .gt, _ => some (below + 1)
    | .eq, .up => some (below + 1)
    | .eq, .even => some (if below % 2 = 0 then below else below + 1)

/-- Looks for the coarsest grid from `10 ^ e` down that meets the interval of `b`, on at most
`grids` more grids. -/
def search (tie : Tie) (b : Binary) (e : Int) : Nat → Decimal
  | 0 => ⟨4 * b.mantissa * b.quarter e / b.gridStep e, e⟩
  | grids + 1 =>
    match b.pick? tie e with
    | some c => ⟨c, e⟩
    | none => search tie b (e - 1) grids

/-- A power of ten above everything that reads back as `b`: the upper midpoint is below
`2 ^ p` for `p` the count of its binary digits, and `30103 / 100000` is just above `log₁₀ 2`. -/
def gridAbove (b : Binary) : Int :=
  ((4 * b.mantissa + 2).log2 + b.exponent - 1) * 30103 / 100000 + 1

/-- A grid that holds `b` itself: a quarter of a unit is a multiple of that power of ten. -/
def gridWithin (b : Binary) : Int := min 0 (b.exponent - 2)

/-- The shortest decimal that reads back as `b`, and among those the nearest to it. -/
def shortest (tie : Tie) (b : Binary) : Decimal :=
  b.search tie b.gridAbove (b.gridAbove - b.gridWithin).toNat

end Binary

end Knitting.Number
