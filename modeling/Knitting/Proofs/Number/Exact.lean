import Knitting.Proofs.Number.Ordered

set_option autoImplicit false

/-! # Heights without rounding

What yarn must clear is a matter of adding heights and comparing them. Over the rational numbers
both are exact: a height raised by something positive is higher. -/

namespace Knitting

instance : Scalar ℚ where
  ofInt n := n
  le a b := decide (a ≤ b)

namespace Scalar

@[simp] theorem le_rat_iff (a b : ℚ) : Scalar.le a b = true ↔ a ≤ b := decide_eq_true_iff

@[simp] theorem lt_rat_iff (a b : ℚ) : lt a b = true ↔ a < b := by
  simp only [lt, Bool.and_eq_true, le_rat_iff, Bool.not_eq_true', ← Bool.not_eq_true, not_le]
  exact ⟨And.right, fun h => ⟨h.le, h⟩⟩

theorem isNumber_rat (a : ℚ) : IsNumber a := (le_rat_iff a a).2 le_rfl

end Scalar

open Scalar

instance : LawfulScalar ℚ where
  isNumber_of_le _ := ⟨isNumber_rat _, isNumber_rat _⟩
  le_total {a b} _ _ := by simpa using le_total a b
  le_trans {a b c} hab hbc := by
    simp only [le_rat_iff] at *
    exact hab.trans hbc
  same_add {a b} c h := by
    simpa [Same, isNumber_rat] using h
  same_sub {a b} c h := by
    simpa [Same, isNumber_rat] using h

end Knitting
