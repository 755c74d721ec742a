import Knitting.Proofs.Needle.Slot
import Knitting.Proofs.Number.Single

set_option autoImplicit false

/-! # Whole numbers among 64-bit numbers

A racking is read off its bits when it is rounded down, and compared as a number when passes are.
Every finite number is a rational one (`Value.rat?`), and this is what rounding down rounds
(`floor?_of_rat?`). For whole numbers the two readings agree: a number that equals a whole number is
rounded down to it (`floor?_of_isHalf`), and so is its negation. -/

namespace Knitting.Number

open Float.Model Float.Model.UnpackedFloat

/-! ## Equality -/

theorem beq_iff_compare (x y : Float) :
    (x == y) = true ↔ x.toModel.unpack.compare y.toModel.unpack = some .eq := by
  rw [← beq_iff_eq (α := Option Ordering)]
  rfl

/-- Numbers that are equal are the same, or zeros. -/
theorem eq_or_zero_of_beq {x y : Float} (h : (x == y) = true) :
    x.toModel.unpack = y.toModel.unpack ∨
      ∃ s t, x.toModel.unpack = .zero s ∧ y.toModel.unpack = .zero t := by
  rw [beq_iff_compare] at h
  have hle : (x.toModel.unpack.compare y.toModel.unpack).any (·.isLE) = true := by
    rw [h]
    rfl
  have hge : (y.toModel.unpack.compare x.toModel.unpack).any (·.isLE) = true := by
    rw [compare_swap, h]
    rfl
  obtain ⟨a, b, ha, hb, hab⟩ := isLE_compare_iff.1 hle
  obtain ⟨b', a', hb', ha', hba⟩ := isLE_compare_iff.1 hge
  obtain rfl := Option.some.inj (ha.symm.trans ha')
  obtain rfl := Option.some.inj (hb.symm.trans hb')
  exact eq_or_zero_of_rank_eq (by rw [ha, hb, le_antisymm hab hba])

theorem IsHalf.beq_iff {x y : Float} {a b : Int} (hx : IsHalf x a) (hy : IsHalf y b) :
    (x == y) = true ↔ a = b := by
  rw [beq_iff_compare, Halves.compare hx hy, Option.some.injEq, Int.compare_eq_eq]

theorem isHalf_of_beq {x y : Float} {a : Int} (h : (x == y) = true) (hy : IsHalf y a) :
    IsHalf x a := by
  rcases eq_or_zero_of_beq h with heq | ⟨s, t, hx, hy'⟩
  · rw [IsHalf, heq]
    exact hy
  · unfold IsHalf at hy ⊢
    rw [hy'] at hy
    cases hy
    rw [hx]
    exact .zero s

/-! ## Rounding down -/

/-- The fields of a bit pattern, with the widths put in. -/
theorem ofBits_double (bits : Nat) : Value.ofBits .double bits =
    if bits / 2 ^ 52 % 2 ^ 11 = 2047 then
      if bits % 2 ^ 52 = 0 then .infinite (bits / 2 ^ 63 % 2 == 1) else .nan
    else if bits / 2 ^ 52 % 2 ^ 11 = 0 then
      if bits % 2 ^ 52 = 0 then .zero (bits / 2 ^ 63 % 2 == 1)
      else .finite (bits / 2 ^ 63 % 2 == 1) ⟨bits % 2 ^ 52, -1074, false⟩
    else
      .finite (bits / 2 ^ 63 % 2 == 1)
        ⟨2 ^ 52 + bits % 2 ^ 52, -1074 + ((bits / 2 ^ 52 % 2 ^ 11 : Nat) - 1),
          bits % 2 ^ 52 == 0 && bits / 2 ^ 52 % 2 ^ 11 > 1⟩ := rfl

/-- The value that is read off the bits of a number and the number that is calculated with. -/
inductive Reads : UnpackedFloat → Value → Prop
  | notANumber : Reads .notANumber .nan
  | infinity (s : Sign) : Reads (.infinity s) (.infinite (s == .negative))
  | zero (s : Sign) : Reads (.zero s) (.zero (s == .negative))
  | finite (s : Sign) (m : Nat) (e : Int) (hm : 0 < m) (narrow : Bool) :
    Reads (.finite s m e hm) (.finite (s == .negative) ⟨m, e, narrow⟩)

theorem reads_ofFloat (x : Float) : Reads x.toModel.unpack (Value.ofFloat x) := by
  have hunpack : x.toModel.unpack = UnpackedFloat.unpack .binary64 x.toBits.toBitVec := rfl
  have hexponent := unpackExponent_eq x.toBits
  have hmantissa : (@unpackMantissa .binary64 x.toBits.toBitVec).toNat = x.toBits.toNat % 2 ^ 52 :=
    rfl
  have hsign : (Sign.ofBitVec (@unpackSign .binary64 x.toBits.toBitVec) == .negative) =
      (x.toBits.toNat / 2 ^ 63 % 2 == 1) := by
    have hbits : (@unpackSign .binary64 x.toBits.toBitVec).toNat = x.toBits.toNat / 2 ^ 63 % 2 := by
      rw [← Nat.shiftRight_eq_div_pow]
      rfl
    rw [← hbits]
    generalize @unpackSign .binary64 x.toBits.toBitVec = sign
    revert sign
    decide
  have hbias : ((Format.binary64.exponentBias : Nat) : Int) = 1023 := by decide
  rw [hunpack, UnpackedFloat.unpack, Value.ofFloat, ofBits_double, ← hexponent, ← hmantissa,
    ← hsign]
  dsimp only
  -- The fields are compared as bits on the one side and as numbers on the other.
  have hones : (-1#11).toNat = 2047 := by decide
  have hzeros : (0#11).toNat = 0 ∧ (0#52).toNat = 0 := by decide
  simp only [← BitVec.toNat_inj, hones, hzeros]
  split
  · split
    · exact .infinity _
    · exact .notANumber
  · split
    · next hzero =>
      split
      · exact .zero _
      · have hlowest : ((@unpackExponent .binary64 x.toBits.toBitVec).toNat : Int) -
            ((Format.binary64.exponentBias : Nat) + (52 : Nat)) + 1 = -1074 := by
          rw [hzero, hbias]
          rfl
        simp only [hlowest]
        exact .finite ..
    · have hmantissa : (1#1 ++ @unpackMantissa .binary64 x.toBits.toBitVec).toNat =
          2 ^ 52 + (@unpackMantissa .binary64 x.toBits.toBitVec).toNat := by
        have hlt := (@unpackMantissa .binary64 x.toBits.toBitVec).isLt
        rw [BitVec.toNat_append, ← Nat.shiftLeft_add_eq_or_of_lt hlt]
        rfl
      have hexponent : ((@unpackExponent .binary64 x.toBits.toBitVec).toNat : Int) -
          ((Format.binary64.exponentBias : Nat) + (52 : Nat)) =
            -1074 + ((@unpackExponent .binary64 x.toBits.toBitVec).toNat - 1) := by
        rw [hbias]
        omega
      simp only [hmantissa, hexponent]
      exact .finite ..

/-! ## Exact values -/

/-- The number that a value is, if it is finite. -/
def Value.rat? : Value → Option ℚ
  | .nan => none
  | .infinite _ => none
  | .zero _ => some 0
  | .finite negative b => some ((if negative then -1 else 1) * b.mantissa * 2 ^ b.exponent)

/-- Rounding down is exact. -/
theorem floor?_of_rat? {value : Value} {q : ℚ} (h : value.rat? = some q) :
    value.floor? = some ⌊q⌋ := by
  cases value with
  | nan => simp [Value.rat?] at h
  | infinite negative => simp [Value.rat?] at h
  | zero negative =>
    obtain rfl := Option.some.inj h
    simp [Value.floor?]
  | finite negative b =>
    obtain rfl := Option.some.inj h
    obtain ⟨m, e, narrow⟩ := b
    have hsigned : (if negative = true then (-1 : ℚ) else 1) * m =
        ((if negative = true then -(m : Int) else m : Int) : ℚ) := by
      cases negative <;> simp
    simp only [Value.floor?, Binary.floor, hsigned, Option.some.injEq]
    generalize (if negative = true then -(m : Int) else m : Int) = k
    split
    · next he =>
      have hpow : (2 : ℚ) ^ e = 1 / ((2 ^ (-e).toNat : Nat) : ℚ) := by
        have hexponent : e = -((-e).toNat : Int) := by omega
        conv_lhs => rw [hexponent]
        rw [zpow_neg, zpow_natCast]
        push_cast
        rw [one_div]
      rw [hpow, mul_one_div, Rat.floor_intCast_div_natCast]
      push_cast
      rfl
    · next he =>
      have hpow : (2 : ℚ) ^ e = ((2 ^ e.toNat : Int) : ℚ) := by
        have hexponent : e = (e.toNat : Int) := by omega
        conv_lhs => rw [hexponent]
        rw [zpow_natCast]
        push_cast
        rfl
      rw [hpow, ← Int.cast_mul, Int.floor_intCast]
      rfl

theorem rat?_of_isHalf {x : Float} {k : Int} (h : IsHalf x k) :
    (Value.ofFloat x).rat? = some ((k : ℚ) / 2) := by
  have hreads := reads_ofFloat x
  unfold IsHalf at h
  generalize x.toModel.unpack = u at h hreads
  generalize Value.ofFloat x = value at hreads
  cases h with
  | zero s =>
    cases hreads with
    | zero s => simp [Value.rat?]
  | finite s k hpos hlt =>
    cases hreads with
    | finite s m e hm narrow =>
      have hlog : k.log2 < 53 := (Nat.log2_lt hpos.ne').2 hlt
      have hsigned : (if (s == .negative) = true then (-1 : ℚ) else 1) * k = (s.apply k : Int) := by
        cases s <;> simp [Sign.apply]
      have hpow : (2 : ℚ) ^ (52 - k.log2) * 2 ^ ((k.log2 : Int) - 53) = 1 / 2 := by
        rw [← zpow_natCast, ← zpow_add₀ (by norm_num)]
        have hexponent : ((52 - k.log2 : Nat) : Int) + ((k.log2 : Int) - 53) = -1 := by omega
        rw [hexponent]
        norm_num
      rw [Value.rat?, Option.some.injEq, ← hsigned]
      push_cast
      rw [← mul_assoc, mul_assoc, hpow]
      ring

theorem rat?_of_whole {x : Float} {n : Int} (h : IsHalf x (2 * n)) :
    (Value.ofFloat x).rat? = some (n : ℚ) := by
  rw [rat?_of_isHalf h]
  push_cast
  rw [mul_div_cancel_left₀ _ (by norm_num)]

/-- A number that equals a whole number is rounded down to it. -/
theorem floor?_of_isHalf {x : Float} {n : Int} (h : IsHalf x (2 * n)) :
    (Value.ofFloat x).floor? = some n := by
  rw [floor?_of_rat? (rat?_of_whole h), Int.floor_intCast]

end Knitting.Number
