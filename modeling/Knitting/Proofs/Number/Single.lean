import Knitting.Proofs.Number.Half
import Knitting.Proofs.Number.Ordered

set_option autoImplicit false

/-! # The order of 32-bit numbers

Every number has a rank, by its sign first and then by how far it is from zero, and one number is at
most another if its rank is. Only what is not a number has none, and only the two zeros share one.
So numbers are the same as numbers if they have the same rank (`same_iff_rank`), which is all that a
sum or a difference depends on but for the sign of a zero. -/

namespace Knitting.Number

open Float.Model Float.Model.UnpackedFloat Scalar

/-! ## Ranks -/

/-- The place of a number among all: its sign, its exponent and its mantissa. -/
def rank : UnpackedFloat → Option (ℤ ×ₗ ℤ ×ₗ ℤ)
  | .notANumber => none
  | .infinity .negative => some (toLex (-2, toLex (0, 0)))
  | .finite .negative m e _ => some (toLex (-1, toLex (-e, -m)))
  | .zero _ => some (toLex (0, toLex (0, 0)))
  | .finite .positive m e _ => some (toLex (1, toLex (e, m)))
  | .infinity .positive => some (toLex (2, toLex (0, 0)))

theorem isLE_compare_then (e e' : ℤ) (m m' : ℕ) :
    ((compare e e').then (compare m m')).isLE = true ↔ e < e' ∨ e = e' ∧ m ≤ m' := by
  rcases Int.lt_trichotomy e e' with h | rfl | h
  · rw [compare_lt_iff_lt.2 h]
    simp [h]
  · simp [Nat.isLE_compare]
  · rw [compare_gt_iff_gt.2 h]
    simp [h.ne', h.not_gt]

theorem isGE_compare_then (e e' : ℤ) (m m' : ℕ) :
    ((compare e e').then (compare m m')).isGE = true ↔ e' < e ∨ e = e' ∧ m' ≤ m := by
  have hswap : (compare e e').then (compare m m') =
      ((compare e' e).then (compare m' m)).swap := by
    rw [Ordering.swap_then, Int.compare_swap, Nat.compare_swap]
  rw [hswap, Ordering.isGE_swap, isLE_compare_then, eq_comm]

/-- One number is at most another if its rank is. -/
theorem isLE_compare_iff {u v : UnpackedFloat} :
    (u.compare v).any (·.isLE) = true ↔ ∃ a b, rank u = some a ∧ rank v = some b ∧ a ≤ b := by
  rcases u with s | _ | s | ⟨s, m, e, hm⟩ <;> rcases v with t | _ | t | ⟨t, m', e', hm'⟩ <;>
    try cases s
  all_goals try cases t
  all_goals simp [UnpackedFloat.compare, rank, Prod.Lex.toLex_le_toLex]
  -- What is left are infinities, and finite numbers of one sign.
  · rfl
  · rfl
  · rfl
  · rfl
  · exact isGE_compare_then e e' m m'
  · exact isLE_compare_then e e' m m'

/-- Only zeros share a rank. -/
theorem eq_or_zero_of_rank_eq {u v : UnpackedFloat} (h : rank u = rank v) :
    u = v ∨ ∃ s t, u = .zero s ∧ v = .zero t := by
  rcases u with s | _ | s | ⟨s, m, e, hm⟩ <;> rcases v with t | _ | t | ⟨t, m', e', hm'⟩ <;>
    try cases s
  all_goals try cases t
  all_goals simp_all [rank]

/-! ## Heights -/

/-- The rank of a height. -/
def heightRank (x : Float32) : Option (ℤ ×ₗ ℤ ×ₗ ℤ) := rank x.toModel.unpack

theorem le_iff_rank (x y : Float32) :
    Scalar.le x y = true ↔ ∃ a b, heightRank x = some a ∧ heightRank y = some b ∧ a ≤ b := by
  have hcompare : x ≤ y ↔ (x.toModel.unpack.compare y.toModel.unpack).any (·.isLE) = true := by
    rw [← decide_eq_true_iff (p := _ = true)]
    rfl
  exact decide_eq_true_iff.trans (hcompare.trans isLE_compare_iff)

theorem isNumber_iff_rank (x : Float32) : IsNumber x ↔ ∃ a, heightRank x = some a := by
  rw [IsNumber, le_iff_rank]
  constructor
  · rintro ⟨a, -, ha, -, -⟩
    exact ⟨a, ha⟩
  · rintro ⟨a, ha⟩
    exact ⟨a, a, ha, ha, le_refl a⟩

/-- Two heights are the same number if they have the same rank, or none. -/
theorem same_iff_rank (x y : Float32) : Same x y ↔ heightRank x = heightRank y := by
  have hnone : ∀ z : Float32, ¬IsNumber z ↔ heightRank z = none := by
    intro z
    rw [isNumber_iff_rank, ← Option.ne_none_iff_exists', not_not]
  rw [Same, hnone, hnone, le_iff_rank, le_iff_rank]
  constructor
  · rintro (⟨⟨a, b, ha, hb, hab⟩, ⟨b', a', hb', ha', hba⟩⟩ | ⟨hx, hy⟩)
    · obtain rfl := Option.some.inj (ha.symm.trans ha')
      obtain rfl := Option.some.inj (hb.symm.trans hb')
      rw [ha, hb, le_antisymm hab hba]
    · rw [hx, hy]
  · intro h
    cases hx : heightRank x with
    | none => exact .inr ⟨rfl, h ▸ hx⟩
    | some a =>
      have hy : heightRank y = some a := h ▸ hx
      exact .inl ⟨⟨a, a, rfl, hy, le_refl a⟩, ⟨a, a, hy, rfl, le_refl a⟩⟩

/-! ## Sums and differences -/

/-- A sum with a zero is told by the other number, up to the sign of a zero. -/
theorem rank_add_zero (s t : Sign) (w : UnpackedFloat) :
    rank (Float32.Model.pack (add .binary32 (.zero s) w)).unpack =
      rank (Float32.Model.pack (add .binary32 (.zero t) w)).unpack := by
  cases w with
  | infinity r => rfl
  | notANumber => rfl
  | zero r => cases s <;> cases t <;> cases r <;> rfl
  | finite r m e hm => rfl

theorem rank_sub_zero (s t : Sign) (w : UnpackedFloat) :
    rank (Float32.Model.pack (sub .binary32 (.zero s) w)).unpack =
      rank (Float32.Model.pack (sub .binary32 (.zero t) w)).unpack := by
  cases w with
  | infinity r => rfl
  | notANumber => rfl
  | zero r => cases s <;> cases t <;> cases r <;> rfl
  | finite r m e hm => rfl

/-- What is calculated with a number and rounded depends on its rank only, if it does not depend on
the sign of a zero. -/
theorem rank_pack_congr {f : UnpackedFloat → UnpackedFloat}
    (hzero : ∀ s t, rank (Float32.Model.pack (f (.zero s))).unpack =
      rank (Float32.Model.pack (f (.zero t))).unpack)
    {u v : UnpackedFloat} (h : rank u = rank v) :
    rank (Float32.Model.pack (f u)).unpack = rank (Float32.Model.pack (f v)).unpack := by
  rcases eq_or_zero_of_rank_eq h with rfl | ⟨s, t, rfl, rfl⟩
  · rfl
  · exact hzero s t

instance : LawfulScalar Float32 where
  isNumber_of_le {x y} h := by
    obtain ⟨a, b, ha, hb, -⟩ := (le_iff_rank x y).1 h
    exact ⟨(isNumber_iff_rank x).2 ⟨a, ha⟩, (isNumber_iff_rank y).2 ⟨b, hb⟩⟩
  le_total {x y} hx hy := by
    obtain ⟨a, ha⟩ := (isNumber_iff_rank x).1 hx
    obtain ⟨b, hb⟩ := (isNumber_iff_rank y).1 hy
    rcases le_total a b with hab | hba
    · exact .inl ((le_iff_rank x y).2 ⟨a, b, ha, hb, hab⟩)
    · exact .inr ((le_iff_rank y x).2 ⟨b, a, hb, ha, hba⟩)
  le_trans {x y z} hxy hyz := by
    obtain ⟨a, b, ha, hb, hab⟩ := (le_iff_rank x y).1 hxy
    obtain ⟨b', c, hb', hc, hbc⟩ := (le_iff_rank y z).1 hyz
    obtain rfl := Option.some.inj (hb.symm.trans hb')
    exact (le_iff_rank x z).2 ⟨a, c, ha, hc, hab.trans hbc⟩
  same_add {x y} z h := by
    rw [same_iff_rank] at h ⊢
    exact rank_pack_congr (f := fun u => add .binary32 u z.toModel.unpack)
      (fun s t => rank_add_zero s t _) h
  same_sub {x y} z h := by
    rw [same_iff_rank] at h ⊢
    exact rank_pack_congr (f := fun u => sub .binary32 u z.toModel.unpack)
      (fun s t => rank_sub_zero s t _) h

end Knitting.Number
