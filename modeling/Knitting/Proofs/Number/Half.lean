import Knitting.Number.Binary
import Mathlib

set_option autoImplicit false

/-! # Halves of whole numbers

Carriers are parked half a slot beside a needle, so the places that passes compare are halves of
whole numbers. Those of less than 53 bits are 64-bit numbers, and sums, differences and comparisons
of them are exact (`IsHalf.add`, `IsHalf.sub`, `IsHalf.lt_iff`). A number that is half of `n` has a
mantissa of 53 bits in which the bits of `n` come first. -/

namespace Knitting.Number

open Float.Model Float.Model.UnpackedFloat

/-! ## Exact rounding -/

/-- Shifting out bits that are zero loses nothing. -/
theorem shiftRight_mul_two_pow (m k : Nat) :
    (⟨m * 2 ^ k, false, false⟩ : ExtendedMantissa) >>> k = ⟨m, false, false⟩ := by
  induction k generalizing m with
  | zero => simp [HShiftRight.hShiftRight, Nat.repeat]
  | succ k ih =>
    have hsplit : (⟨m * 2 ^ (k + 1), false, false⟩ : ExtendedMantissa) >>> (k + 1) =
        ExtendedMantissa.shiftRightOne
          ((⟨m * 2 * 2 ^ k, false, false⟩ : ExtendedMantissa) >>> k) := by
      rw [Nat.pow_succ', ← Nat.mul_assoc]
      rfl
    rw [hsplit, ih]
    simp [ExtendedMantissa.shiftRightOne]

/-- A mantissa of 53 bits. -/
def Full (m : Nat) : Prop := m.log2 = 52

theorem Full.pos {m : Nat} (h : Full m) : 0 < m := by
  rcases Nat.eq_zero_or_pos m with rfl | hpos
  · exact absurd (show Nat.log2 0 = 52 from h) (by decide)
  · exact hpos

theorem log2_mul_two_pow {m : Nat} (h : 0 < m) (k : Nat) : (m * 2 ^ k).log2 = m.log2 + k := by
  induction k with
  | zero => simp
  | succ k ih =>
    have hne : m * 2 ^ k ≠ 0 := (Nat.mul_pos h (Nat.two_pow_pos k)).ne'
    rw [Nat.pow_succ', Nat.mul_left_comm, Nat.log2_two_mul hne, ih]
    rfl

/-- The exponent that a number with a mantissa of 53 bits should have is its own. -/
theorem targetExponent_of_full {m : Nat} {e t : Int} (ht : (m.log2 : Int) + e = 52 + t)
    (hmin : -1074 ≤ t) : Format.binary64.targetExponent (totalExponent m e) = t := by
  simp only [Format.targetExponent, totalExponent, Format.mantissaBits, Format.minExponent]
  norm_num
  omega

/-- Rounding a number with a mantissa of 53 bits, and zeros behind them, gives that number. -/
theorem roundWithAccuracy_of_full (s : Sign) {m : Nat} (hm : Full m) {e : Int} (he : -1074 ≤ e)
    (k : Nat) :
    roundWithAccuracy .binary64 s (m * 2 ^ k) (e - k) .exact = .finite s m e hm.pos := by
  have hshift : ∀ j : Nat, shiftToTargetExponent .binary64 (m * 2 ^ j) (e - j) .exact =
      (⟨m, false, false⟩, e) := by
    intro j
    have htarget : Format.binary64.targetExponent (totalExponent (m * 2 ^ j) (e - j)) = e :=
      targetExponent_of_full (by rw [log2_mul_two_pow hm.pos, hm]; push_cast; ring) he
    have hamount : (e - (e - (j : Int))).toNat = j := by omega
    simp only [shiftToTargetExponent, shiftToExponent, htarget, hamount,
      ExtendedMantissa.ofMantissaAndAccuracy, shiftRight_mul_two_pow, Int.sub_add_cancel]
  have hsame := hshift 0
  simp only [Nat.pow_zero, Nat.mul_one, Int.natCast_zero, Int.sub_zero] at hsame
  have hrounded : (⟨m, false, false⟩ : ExtendedMantissa).roundedMantissa = m := rfl
  simp only [roundWithAccuracy, hshift k, hrounded, hsame, hm.pos.ne', dif_neg, not_false_eq_true]

/-- The same for a number with a mantissa of any length. -/
theorem round_of_full (s : Sign) {m : Nat} (hm : Full m) {e : Int} (he : -1074 ≤ e)
    {m' : Nat} {e' : Int} (h : (∃ k : Nat, m' = m * 2 ^ k ∧ e' = e - k) ∨
      ∃ k : Nat, m = m' * 2 ^ k ∧ e' = e + k) :
    UnpackedFloat.round .binary64 s m' e' = .finite s m e hm.pos := by
  rcases h with ⟨k, rfl, rfl⟩ | ⟨k, rfl, rfl⟩
  · have htarget : Format.binary64.targetExponent (totalExponent (m * 2 ^ k) (e - k)) = e :=
      targetExponent_of_full (by rw [log2_mul_two_pow hm.pos, hm]; push_cast; ring) he
    have hamount : (e - (k : Int) - e).toNat = 0 := by omega
    simp only [UnpackedFloat.round, decreaseExponent, htarget, hamount, Nat.shiftLeft_zero,
      Int.natCast_zero, Int.sub_zero]
    exact roundWithAccuracy_of_full s hm he k
  · have hpos : 0 < m' := Nat.pos_of_mul_pos_right hm.pos
    have hlog : m'.log2 + k = 52 := by rw [← log2_mul_two_pow hpos]; exact hm
    have htarget : Format.binary64.targetExponent (totalExponent m' (e + k)) = e :=
      targetExponent_of_full (by omega) he
    have hamount : (e + (k : Int) - e).toNat = k := by omega
    have hsame := roundWithAccuracy_of_full s hm he 0
    simp only [Nat.pow_zero, Nat.mul_one, Int.natCast_zero, Int.sub_zero] at hsame
    simp only [UnpackedFloat.round, decreaseExponent, htarget, hamount, Nat.shiftLeft_eq,
      Int.add_sub_cancel, hsame]

/-! ## Packing -/

/-- A number with a mantissa of 53 bits is packed without loss. -/
theorem unpack_pack_of_full (s : Sign) {m : Nat} (hm : Full m) {e : Int} (he : -1074 ≤ e)
    (he' : e ≤ 970) :
    (Float.Model.pack (.finite s m e hm.pos)).unpack = .finite s m e hm.pos := by
  have hbounds : 2 ^ 52 ≤ m ∧ m < 2 ^ 53 := (Nat.log2_eq_iff hm.pos.ne').1 hm
  have hbiased : (e + 1023 + 52).toNat < 2047 ∧ 0 < (e + 1023 + 52).toNat := by omega
  have hexponent : (BitVec.ofNat 11 (e + 1023 + 52).toNat).toNat = (e + 1023 + 52).toNat := by
    rw [BitVec.toNat_ofNat, Nat.mod_eq_of_lt (by omega)]
  have hmantissa : (1#1 ++ BitVec.ofNat 52 m).toNat = m := by
    have hlt : m % 2 ^ 52 < 2 ^ 52 := Nat.mod_lt _ (Nat.two_pow_pos 52)
    rw [BitVec.toNat_append, BitVec.toNat_ofNat m, ← Nat.shiftLeft_add_eq_or_of_lt hlt]
    simp only [BitVec.toNat_ofNat, Nat.shiftLeft_eq]
    omega
  -- The leading bit of the mantissa is left out, and the exponent is stored with its bias.
  have hpack : UnpackedFloat.pack .binary64 (.finite s m e hm.pos) =
      packComponents .binary64 s (BitVec.ofNat 11 (e + 1023 + 52).toNat) (BitVec.ofNat 52 m) := by
    have hnot : ¬2 ^ 11 ≤ (e + 1023 + 52).toNat + 1 := by omega
    have hlog : m.log2 = 52 := hm
    simp only [UnpackedFloat.pack, Format.exponentBias, Format.mantissaBits, hlog]
    exact (if_neg hnot).trans (if_pos trivial)
  change UnpackedFloat.unpack .binary64 (UnpackedFloat.pack .binary64 (.finite s m e hm.pos)) = _
  rw [hpack]
  simp only [UnpackedFloat.unpack, unpackExponent_packComponents, unpackMantissa_packComponents,
    unpackSign_packComponents]
  have hone : BitVec.ofNat 11 (e + 1023 + 52).toNat ≠ -1#11 := fun h => by
    have h' := hexponent.symm.trans (congrArg BitVec.toNat h)
    have hmax : (-1#11).toNat = 2047 := by decide
    omega
  have hzero : BitVec.ofNat 11 (e + 1023 + 52).toNat ≠ 0#11 := fun h => by
    have h' := hexponent.symm.trans (congrArg BitVec.toNat h)
    have hmin : (0#11).toNat = 0 := by decide
    omega
  have hsign : Sign.ofBitVec s.toBitVec = s := by cases s <;> rfl
  have hback : ((e + 1023 + 52).toNat : Int) -
      ((Format.binary64.exponentBias : Int) + (52 : Nat)) = e := by
    have hbias : Format.binary64.exponentBias = 1023 := by decide
    omega
  rw [if_neg hone, if_neg hzero]
  simp only [hmantissa, hexponent, hsign, hback]

/-! ## Unpacked halves -/

theorem full_scale {n : Nat} (hn : 0 < n) (hlt : n < 2 ^ 53) : Full (n * 2 ^ (52 - n.log2)) := by
  have hlog : n.log2 < 53 := (Nat.log2_lt hn.ne').2 hlt
  rw [Full, log2_mul_two_pow hn]
  omega

/-- The unpacked number that is half of a whole number. -/
inductive Halves : UnpackedFloat → Int → Prop
  | zero (s : Sign) : Halves (.zero s) 0
  | finite (s : Sign) (n : Nat) (hn : 0 < n) (hlt : n < 2 ^ 53) :
    Halves (.finite s (n * 2 ^ (52 - n.log2)) (n.log2 - 53) (full_scale hn hlt).pos) (s.apply n)

/-- Rounding half of a whole number, in whatever form, gives the number itself. -/
theorem halves_round (s : Sign) {n : Nat} (hn : 0 < n) (hlt : n < 2 ^ 53) {m : Nat} {e : Int}
    (h : (∃ j : Nat, m = n * 2 ^ j ∧ e = -1 - j) ∨ n = 2 * m ∧ e = 0) :
    Halves (UnpackedFloat.round .binary64 s m e) (s.apply n) := by
  have hlog : n.log2 < 53 := (Nat.log2_lt hn.ne').2 hlt
  have hround : UnpackedFloat.round .binary64 s m e =
      .finite s (n * 2 ^ (52 - n.log2)) (n.log2 - 53) (full_scale hn hlt).pos := by
    refine round_of_full s (full_scale hn hlt) (by omega) ?_
    rcases h with ⟨j, rfl, rfl⟩ | ⟨rfl, rfl⟩
    · -- The form has more zeros behind `n` than the mantissa of 53 bits, or fewer.
      rcases Nat.le_total (52 - n.log2) j with hj | hj
      · refine .inl ⟨j - (52 - n.log2), ?_, by omega⟩
        rw [Nat.mul_assoc, ← Nat.pow_add, Nat.add_sub_cancel' hj]
      · refine .inr ⟨52 - n.log2 - j, ?_, by omega⟩
        rw [Nat.mul_assoc, ← Nat.pow_add, Nat.add_sub_cancel' hj]
    · have hm : m ≠ 0 := by omega
      have hdouble : (2 * m).log2 = m.log2 + 1 := Nat.log2_two_mul hm
      rw [hdouble] at hlog ⊢
      refine .inr ⟨52 - m.log2, ?_, by omega⟩
      have hsplit : 52 - m.log2 = 52 - (m.log2 + 1) + 1 := by omega
      rw [hsplit, Nat.pow_succ]
      ring
  rw [hround]
  exact .finite s n hn hlt

theorem halves_normalize {k m e : Int} (hk : -2 ^ 53 < k ∧ k < 2 ^ 53)
    (h : (∃ j : Nat, m = k * 2 ^ j ∧ e = -1 - j) ∨ k = 2 * m ∧ e = 0) :
    Halves (UnpackedFloat.normalize .binary64 m e .positive) k := by
  have hsign : (0 < m ↔ 0 < k) ∧ (0 < -m ↔ 0 < -k) := by
    rcases h with ⟨j, rfl, -⟩ | ⟨rfl, -⟩
    · have hpow : (0 : Int) < 2 ^ j := Int.pow_pos (by decide)
      rw [← Int.neg_mul]
      exact ⟨mul_pos_iff_of_pos_right hpow, mul_pos_iff_of_pos_right hpow⟩
    · omega
  unfold UnpackedFloat.normalize
  rcases Int.lt_trichotomy k 0 with hneg | hzero | hpos
  · have hform : (∃ j : Nat, (-m).toNat = (-k).toNat * 2 ^ j ∧ e = -1 - j) ∨
        (-k).toNat = 2 * (-m).toNat ∧ e = 0 := by
      rcases h with ⟨j, hm, he⟩ | ⟨hm, he⟩
      · refine .inl ⟨j, ?_, he⟩
        rw [hm, ← Int.neg_mul, Int.toNat_mul (by omega) (Int.pow_nonneg (by decide))]
        rfl
      · exact .inr ⟨by omega, he⟩
    have hround := halves_round .negative (by omega) (by omega) hform
    have hk' : Sign.negative.apply ((-k).toNat : Int) = k := by
      simp only [Sign.apply]
      omega
    rw [compare_lt_iff_lt.2 (by omega)]
    rwa [hk'] at hround
  · rw [compare_eq_iff_eq.2 (by omega), hzero]
    exact .zero _
  · have hform : (∃ j : Nat, m.toNat = k.toNat * 2 ^ j ∧ e = -1 - j) ∨
        k.toNat = 2 * m.toNat ∧ e = 0 := by
      rcases h with ⟨j, hm, he⟩ | ⟨hm, he⟩
      · refine .inl ⟨j, ?_, he⟩
        rw [hm, Int.toNat_mul (by omega) (Int.pow_nonneg (by decide))]
        rfl
      · exact .inr ⟨by omega, he⟩
    have hround := halves_round .positive (by omega) (by omega) hform
    have hk' : Sign.positive.apply (k.toNat : Int) = k := by
      simp only [Sign.apply]
      omega
    rw [compare_gt_iff_gt.2 (by omega)]
    rwa [hk'] at hround

theorem apply_neg (s : Sign) (m : Int) : (-s).apply m = -s.apply m := by
  cases s with
  | negative => exact (Int.neg_neg m).symm
  | positive => rfl

theorem Halves.neg {u : UnpackedFloat} {a : Int} (h : Halves u a) : Halves u.neg (-a) := by
  cases h with
  | zero s => exact .zero _
  | finite s n hn hlt =>
    rw [← apply_neg]
    exact .finite (-s) n hn hlt

/-- The mantissas of two halves with the smaller of their exponents are the two whole numbers with
as many zeros behind both. -/
theorem decreaseExponent_half {n : Nat} (hn : 0 < n) (hlt : n < 2 ^ 53) {j : Nat}
    (hj : 52 - n.log2 ≤ j) :
    (decreaseExponent (n * 2 ^ (52 - n.log2)) (n.log2 - 53) (-1 - j)).1 = n * 2 ^ j := by
  have hlog : n.log2 < 53 := (Nat.log2_lt hn.ne').2 hlt
  have hamount : ((n.log2 : Int) - 53 - (-1 - j)).toNat = j - (52 - n.log2) := by omega
  rw [decreaseExponent, hamount, Nat.shiftLeft_eq, Nat.mul_assoc, ← Nat.pow_add,
    Nat.add_sub_cancel' hj]

theorem Halves.add {u v : UnpackedFloat} {a b : Int} (hu : Halves u a) (hv : Halves v b)
    (hlt : -2 ^ 53 < a + b ∧ a + b < 2 ^ 53) : Halves (u.add .binary64 v) (a + b) := by
  cases hu with
  | zero s =>
    cases hv with
    | zero s' =>
      rw [Int.add_zero]
      cases s <;> cases s' <;> exact .zero _
    | finite s' n hn hn' =>
      rw [Int.zero_add]
      exact .finite s' n hn hn'
  | finite s n hn hn' =>
    cases hv with
    | zero s' =>
      rw [Int.add_zero]
      exact .finite s n hn hn'
    | finite s' n' hm hm' =>
      have hlog : n.log2 < 53 := (Nat.log2_lt hn.ne').2 hn'
      have hlog' : n'.log2 < 53 := (Nat.log2_lt hm.ne').2 hm'
      -- Both are brought to the exponent of the one that is nearer to zero.
      obtain ⟨j, hmin, hj, hj'⟩ : ∃ j : Nat, min ((n.log2 : Int) - 53) (n'.log2 - 53) = -1 - j ∧
          52 - n.log2 ≤ j ∧ 52 - n'.log2 ≤ j := ⟨52 - min n.log2 n'.log2, by omega⟩
      have happly : ∀ (s : Sign) (n : Nat),
          s.apply ((n * 2 ^ j : Nat) : Int) = s.apply n * 2 ^ j := by
        intro s n
        cases s <;> simp [Sign.apply]
      simp only [UnpackedFloat.add, hmin, decreaseExponent_half hn hn' hj,
        decreaseExponent_half hm hm' hj', happly, ← Int.add_mul]
      exact halves_normalize hlt (.inl ⟨j, rfl, rfl⟩)

theorem Halves.mul_one {u : UnpackedFloat} {a : Int} (h : Halves u a) :
    Halves (u.mul .binary64 (.finite .positive (2 ^ 52) (-52) (by decide))) a := by
  cases h with
  | zero s => exact .zero _
  | finite s n hn hlt =>
    have hlog : n.log2 < 53 := (Nat.log2_lt hn.ne').2 hlt
    have hsign : s * .positive = s := by cases s <;> rfl
    have hround := roundWithAccuracy_of_full s (full_scale hn hlt) (e := n.log2 - 53) (by omega) 52
    rw [UnpackedFloat.mul, hsign]
    exact hround ▸ .finite s n hn hlt

/-- Subtracting is adding what is negated. -/
theorem sub_eq_add_neg (u v : UnpackedFloat) :
    u.sub .binary64 v = u.add .binary64 v.neg := by
  cases u <;> cases v <;>
    simp [UnpackedFloat.sub, UnpackedFloat.add, UnpackedFloat.neg, apply_neg, Int.sub_eq_add_neg]

/-! ## Comparing -/

theorem compare_scale {n n' : Nat} (hn : 0 < n) (hn' : 0 < n') :
    (compare ((n.log2 : Int) - 53) ((n'.log2 : Int) - 53)).then
      (compare (n * 2 ^ (52 - n.log2)) (n' * 2 ^ (52 - n'.log2))) = compare n n' := by
  have hbelow : ∀ {k k' : Nat}, 0 < k → 0 < k' → k.log2 < k'.log2 → k < k' := by
    intro k k' hk hk' hlog
    exact (Nat.log2_lt hk.ne').1 hlog |>.trans_le (Nat.log2_self_le hk'.ne')
  rcases Nat.lt_trichotomy n.log2 n'.log2 with hlog | hlog | hlog
  · rw [compare_lt_iff_lt.2 (by omega : (n.log2 : Int) - 53 < n'.log2 - 53),
      compare_lt_iff_lt.2 (hbelow hn hn' hlog)]
    rfl
  · have hpow : 0 < 2 ^ (52 - n'.log2) := Nat.two_pow_pos _
    rw [hlog, compare_eq_iff_eq.2 rfl]
    rcases Nat.lt_trichotomy n n' with h | h | h
    · rw [compare_lt_iff_lt.2 h, compare_lt_iff_lt.2 (Nat.mul_lt_mul_of_pos_right h hpow)]
      rfl
    · rw [h, compare_eq_iff_eq.2 rfl, compare_eq_iff_eq.2 rfl]
      rfl
    · rw [compare_gt_iff_gt.2 h, compare_gt_iff_gt.2 (Nat.mul_lt_mul_of_pos_right h hpow)]
      rfl
  · rw [compare_gt_iff_gt.2 (by omega : (n'.log2 : Int) - 53 < n.log2 - 53),
      compare_gt_iff_gt.2 (hbelow hn' hn hlog)]
    rfl

theorem compare_natCast (n n' : Nat) : compare (n : Int) n' = compare n n' := by
  rcases Nat.lt_trichotomy n n' with h | h | h
  · rw [compare_lt_iff_lt.2 h, compare_lt_iff_lt.2 (Int.ofNat_lt.2 h)]
  · rw [compare_eq_iff_eq.2 h, compare_eq_iff_eq.2 (congrArg _ h)]
  · rw [compare_gt_iff_gt.2 h, compare_gt_iff_gt.2 (Int.ofNat_lt.2 h)]

theorem compare_neg_neg (a b : Int) : compare (-a) (-b) = compare b a := by
  rcases Int.lt_trichotomy b a with h | h | h
  · rw [compare_lt_iff_lt.2 h, compare_lt_iff_lt.2 (Int.neg_lt_neg h)]
  · rw [compare_eq_iff_eq.2 h, compare_eq_iff_eq.2 (congrArg _ h.symm)]
  · rw [compare_gt_iff_gt.2 h, compare_gt_iff_gt.2 (Int.neg_lt_neg h)]

theorem Halves.compare {u v : UnpackedFloat} {a b : Int} (hu : Halves u a) (hv : Halves v b) :
    u.compare v = some (Ord.compare a b) := by
  cases hu with
  | zero s =>
    cases hv with
    | zero s' => rfl
    | finite s' n hn _ =>
      cases s' with
      | negative => exact congrArg some (compare_gt_iff_gt.2 (by simpa [Sign.apply])).symm
      | positive => exact congrArg some (compare_lt_iff_lt.2 (by simpa [Sign.apply])).symm
  | finite s n hn _ =>
    cases hv with
    | zero s' =>
      cases s with
      | negative => exact congrArg some (compare_lt_iff_lt.2 (by simpa [Sign.apply])).symm
      | positive => exact congrArg some (compare_gt_iff_gt.2 (by simpa [Sign.apply])).symm
    | finite s' n' hn' _ =>
      have hscale := compare_scale hn hn'
      cases s <;> cases s' <;>
        simp only [UnpackedFloat.compare, hscale, Option.some.injEq, Sign.apply]
      · rw [compare_neg_neg, compare_natCast, Nat.compare_swap]
      · exact (compare_lt_iff_lt.2 (by omega)).symm
      · exact (compare_gt_iff_gt.2 (by omega)).symm
      · rw [compare_natCast]

/-- Swapping two numbers swaps the result of their comparison, if they can be compared. -/
theorem compare_swap (u v : UnpackedFloat) :
    v.compare u = (u.compare v).map Ordering.swap := by
  rcases u with s | _ | s | ⟨s, m, e, hm⟩ <;> rcases v with t | _ | t | ⟨t, m', e', hm'⟩ <;>
    try cases s
  all_goals try cases t
  all_goals simp [UnpackedFloat.compare, Ordering.swap_then, Int.compare_swap, Nat.compare_swap]
  all_goals rfl

/-- What is half of the same whole number compares in the same way. -/
theorem Halves.compare_congr {u v : UnpackedFloat} {a b : Int} (hu : Halves u a) (hv : Halves v b)
    (h : a = b) (w : UnpackedFloat) : u.compare w = v.compare w := by
  cases hu with
  | zero s =>
    cases hv with
    | zero s' =>
      cases w with
      | infinity t => cases t <;> rfl
      | notANumber => rfl
      | zero t => rfl
      | finite t m e hm => cases t <;> rfl
    | finite s' n hn _ => cases s' <;> simp only [Sign.apply] at h <;> omega
  | finite s n hn _ =>
    cases hv with
    | zero s' => cases s <;> simp only [Sign.apply] at h <;> omega
    | finite s' n' hn' _ =>
      obtain ⟨rfl, rfl⟩ : s = s' ∧ n = n' := by
        cases s <;> cases s' <;> simp only [Sign.apply] at h <;>
          first | exact ⟨rfl, by omega⟩ | omega
      rfl

/-! ## Halves -/

/-- A number is half of a whole number. -/
def IsHalf (x : Float) (k : Int) : Prop := Halves x.toModel.unpack k

theorem isHalf_of_halves {u : UnpackedFloat} {k : Int} (h : Halves u k) :
    IsHalf (.ofModel (Float.Model.pack u)) k := by
  unfold IsHalf
  cases h with
  | zero s =>
    have hzero : (Float.Model.pack (.zero s)).unpack = .zero s := by cases s <;> rfl
    rw [hzero]
    exact .zero s
  | finite s n hn hlt =>
    have hlog : n.log2 < 53 := (Nat.log2_lt hn.ne').2 hlt
    rw [unpack_pack_of_full s (full_scale hn hlt) (by omega) (by omega)]
    exact .finite s n hn hlt

theorem IsHalf.add {x y : Float} {a b : Int} (hx : IsHalf x a) (hy : IsHalf y b)
    (hlt : -2 ^ 53 < a + b ∧ a + b < 2 ^ 53) : IsHalf (x + y) (a + b) :=
  isHalf_of_halves (Halves.add hx hy hlt)

theorem IsHalf.sub {x y : Float} {a b : Int} (hx : IsHalf x a) (hy : IsHalf y b)
    (hlt : -2 ^ 53 < a - b ∧ a - b < 2 ^ 53) : IsHalf (x - y) (a - b) := by
  refine isHalf_of_halves ?_
  rw [sub_eq_add_neg]
  exact Halves.add hx (Halves.neg hy) hlt

theorem lt_iff_compare (x y : Float) :
    x < y ↔ x.toModel.unpack.compare y.toModel.unpack = some .lt := by
  rw [← beq_iff_eq, ← decide_eq_true_iff (p := _ = true)]
  rfl

theorem le_iff_compare (x y : Float) :
    x ≤ y ↔ (x.toModel.unpack.compare y.toModel.unpack).any (·.isLE) = true := by
  rw [← decide_eq_true_iff (p := _ = true)]
  rfl

theorem IsHalf.lt_iff {x y : Float} {a b : Int} (hx : IsHalf x a) (hy : IsHalf y b) :
    x < y ↔ a < b := by
  rw [lt_iff_compare, Halves.compare hx hy, Option.some.injEq, Int.compare_eq_lt]

theorem IsHalf.le_iff {x y : Float} {a b : Int} (hx : IsHalf x a) (hy : IsHalf y b) :
    x ≤ y ↔ a ≤ b := by
  rw [le_iff_compare, Halves.compare hx hy, Option.any_some, Int.isLE_compare]

/-- Where one number is below another, the comparisons the other way round fail. -/
theorem not_le_of_lt {x y : Float} (h : x < y) : ¬y ≤ x := by
  rw [lt_iff_compare] at h
  rw [le_iff_compare, compare_swap, h]
  decide

theorem not_lt_of_lt {x y : Float} (h : x < y) : ¬y < x := by
  rw [lt_iff_compare] at h ⊢
  rw [compare_swap, h]
  decide

/-- Two numbers that are half of the same are at most the same numbers, even where they are zeros of
different signs. -/
theorem IsHalf.le_congr {x y : Float} {a : Int} (hx : IsHalf x a) (hy : IsHalf y a) (z : Float) :
    (z ≤ x ↔ z ≤ y) ∧ (x ≤ z ↔ y ≤ z) := by
  have hcompare := Halves.compare_congr hx hy rfl z.toModel.unpack
  simp only [le_iff_compare, compare_swap x.toModel.unpack, compare_swap y.toModel.unpack,
    hcompare, and_self]

theorem IsHalf.neg {x : Float} {a : Int} (hx : IsHalf x a) : IsHalf x.neg (-a) :=
  isHalf_of_halves (Halves.neg hx)

theorem isHalf_half : IsHalf 0.5 1 := by
  have hhalf : (0.5 : Float).toModel.unpack = .finite .positive (1 * 2 ^ (52 - Nat.log2 1))
      (Nat.log2 1 - 53) (full_scale (by decide) (by decide)).pos := rfl
  rw [IsHalf, hhalf]
  exact .finite .positive 1 (by decide) (by decide)

/-- Whole numbers are first converted as machine words and then multiplied by one. -/
theorem isHalf_ofNat {n : Nat} (hn : n < 2 ^ 52) : IsHalf (Float.ofNat n) (2 * n) := by
  have hproduct : Float.ofNat n = n.toUInt64.toFloat * Float.ofBits 0x3FF0000000000000 := by
    have hfast : n < 2 ^ 53 ∧ 0 ≤ 22 := by omega
    simp only [Float.ofNat, OfScientific.ofScientific, Float.ofScientific, hfast]
    rfl
  have hone : (Float.ofBits 0x3FF0000000000000).toModel.unpack =
      .finite .positive (2 ^ 52) (-52) (by decide) := rfl
  have hword : IsHalf n.toUInt64.toFloat (2 * n) := by
    refine isHalf_of_halves (halves_normalize (by omega) (.inr ⟨?_, rfl⟩))
    rw [Nat.toUInt64_eq, UInt64.toNat_ofNat_of_lt' (by simp only [UInt64.size]; omega)]
  rw [hproduct]
  refine isHalf_of_halves ?_
  rw [hone]
  exact Halves.mul_one hword

theorem isHalf_ofInt {n : Int} (hn : -2 ^ 52 < n ∧ n < 2 ^ 52) :
    IsHalf (Float.ofInt n) (2 * n) := by
  cases n with
  | ofNat n => exact isHalf_ofNat (Int.ofNat_lt.1 hn.2)
  | negSucc n =>
    have hnat := (isHalf_ofNat (n := n + 1) (by omega)).neg
    have hn' : -(2 * ((n + 1 : Nat) : Int)) = 2 * Int.negSucc n := by omega
    rwa [hn'] at hnat

end Knitting.Number
