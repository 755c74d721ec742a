import Knitting.Needle.Slot
import Knitting.Proofs.Needle.Syntax

set_option autoImplicit false

/-! # Slots under a racking that can be read

A racking that the notation can spell is a finite number, and so shifts the back needles by a whole
number of slots, itself rounded down (`Racking.exists_floor_of_parse`). Under such a racking a
needle has a slot just if the place to which it is shifted is one of the machine's, and the slot is
that place (`Needle.slot_eq_ok_iff`). -/

namespace Knitting

/-! ## Rackings that can be rounded down -/

namespace Number

open Float.Model Float.Model.UnpackedFloat

theorem unpackExponent_eq (bits : UInt64) :
    (@unpackExponent .binary64 bits.toBitVec).toNat = bits.toNat / 2 ^ 52 % 2 ^ 11 := by
  rw [← Nat.shiftRight_eq_div_pow]
  rfl

/-- Only the largest exponent marks what cannot be rounded down. -/
theorem exponent_of_floor?_eq_none {bits : Nat} (h : (Value.ofBits .double bits).floor? = none) :
    bits / 2 ^ 52 % 2 ^ 11 = 2 ^ 11 - 1 := by
  unfold Value.ofBits at h
  dsimp only at h
  split at h
  · next hfield => exact hfield
  · split at h
    · split at h <;> simp [Value.floor?] at h
    · simp [Value.floor?] at h

theorem unpack_of_floor?_eq_none {x : Float} (h : (Value.ofFloat x).floor? = none) :
    x.toModel.unpack = .notANumber ∨ ∃ s, x.toModel.unpack = .infinity s := by
  have hexponent : @unpackExponent .binary64 x.toBits.toBitVec = -1#_ := by
    rw [← BitVec.toNat_inj, unpackExponent_eq, exponent_of_floor?_eq_none h]
    rfl
  have hunpack : x.toModel.unpack = UnpackedFloat.unpack .binary64 x.toBits.toBitVec := rfl
  rw [hunpack, UnpackedFloat.unpack]
  simp only [hexponent, if_true]
  split
  · exact .inr ⟨_, rfl⟩
  · exact .inl rfl

/-- What cannot be rounded down differs from itself by no number. -/
theorem unpack_sub_self {x : Float} (h : (Value.ofFloat x).floor? = none) :
    (x - x).toModel.unpack = .notANumber := by
  have hsub : (x - x).toModel.unpack = (Float.Model.pack
      (UnpackedFloat.sub .binary64 x.toModel.unpack x.toModel.unpack)).unpack := rfl
  rw [hsub]
  rcases unpack_of_floor?_eq_none h with hx | ⟨s, hx⟩
  · rw [hx]
    rfl
  · rw [hx]
    cases s <;> rfl

/-- What is not a number equals nothing. -/
theorem beq_eq_false_of_notANumber {x : Float} (h : x.toModel.unpack = .notANumber) (y : Float) :
    (x == y) = false := by
  have hbeq : (x == y) = (x.toModel.unpack.compare y.toModel.unpack == some .eq) := rfl
  rw [hbeq, h]
  rfl

end Number

/-- A racking that can be read can be rounded down. -/
theorem Racking.exists_floor_of_parse {token : String} {racking : Float}
    (h : parse token = .ok racking) :
    ∃ shift, (Number.Value.ofFloat racking).floor? = some shift := by
  unfold parse at h
  split at h
  · simp at h
  · next r hr =>
    dsimp only at h
    split at h
    · next hfraction =>
      obtain rfl := Except.ok.inj h
      rw [← Option.ne_none_iff_exists']
      intro hnone
      have hfloor : floor r = r := by rw [floor, hnone]
      have hnan := Number.unpack_sub_self hnone
      rw [hfloor, Number.beq_eq_false_of_notANumber hnan,
        Number.beq_eq_false_of_notANumber hnan] at hfraction
      exact absurd hfraction (by decide)
    · simp at h

theorem Racking.shift?_of_floor {racking : Float} {shift : Int}
    (h : (Number.Value.ofFloat racking).floor? = some shift) : shift? racking = some shift := by
  unfold shift?
  split
  · next hnan => simp [hnan, Number.Value.floor?] at h
  · next hinf => simp [hinf, Number.Value.floor?] at h
  · exact h

/-! ## Places of needles -/

namespace Needle

/-- The place of a needle along the machine, in slots, with the back bed shifted. -/
def shifted (n : Needle) (shift : Int) : Int :=
  match n.bed.side with
  | .front => n.index
  | .back => n.index + shift

/-- Under a racking that can be rounded down a needle has the slot to which it is shifted, if that
is one of the machine's. -/
theorem slot_eq_ok_iff {n : Needle} (hn : isIndex n.index = true) {racking : Float} {shift : Int}
    (hshift : (Number.Value.ofFloat racking).floor? = some shift) {s : Int} :
    n.slot racking = .ok s ↔ s = n.shifted shift ∧ isIndex (n.shifted shift) = true := by
  have hslot : n.slot racking = .ok s ↔ n.slot? racking = some s := by
    unfold slot
    cases n.slot? racking <;> simp
  rw [hslot, slot?, shifted, Racking.shift?_of_floor hshift]
  cases n.bed.side with
  | front => simp [hn, eq_comm]
  | back =>
    rw [Option.map_some, Option.filter_some, Option.ite_none_right_eq_some, Option.some.injEq,
      eq_comm (a := s), and_comm]

/-- The place of a needle is the one to which it is shifted, rounded to a floating-point number. -/
theorem slotPosition_of_floor (n : Needle) {racking : Float} {shift : Int}
    (h : (Number.Value.ofFloat racking).floor? = some shift) :
    n.slotPosition racking = Float.ofInt (n.shifted shift) := by
  unfold slotPosition shifted
  cases n.bed.side with
  | front => rfl
  | back => rw [h]

end Needle

end Knitting
