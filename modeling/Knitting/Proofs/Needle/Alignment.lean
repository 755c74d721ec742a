import Knitting.Proofs.Bounds.Machine
import Knitting.Proofs.Number.Whole

set_option autoImplicit false

/-! # Exact slots

Slots are reckoned in long numbers from a racking that is a floating-point number, and places along
the machine in floating-point numbers throughout. Under a finite racking neither loses anything: the
slot of a needle is the whole number that it should be, if the machine has a slot of that number,
and its place is then the same number (`Needle.rat?_slotPosition`). So two needles face each other
exactly if the back one is shifted to the index of the front one, whichever of the two loops are
moved from (`Machine.splitPlace_eq`). -/

namespace Knitting

open Number

namespace Needle

variable {n : Needle} {racking : Float} {shift s : Int}

/-! ## The slot of a needle -/

theorem slot_eq (hn : isIndex n.index = true)
    (hshift : (Value.ofFloat racking).floor? = some shift) : n.slot racking =
      if isIndex (n.shifted shift) = true then .ok (n.shifted shift)
      else .error (.slotOutOfRange n racking) := by
  split
  · next hslot => exact (slot_eq_ok_iff hn hshift).2 ⟨rfl, hslot⟩
  · next hslot =>
    cases hs : n.slot? racking with
    | none => simp [slot, hs]
    | some s =>
      have hok : n.slot racking = .ok s := by simp [slot, hs]
      exact absurd ((slot_eq_ok_iff hn hshift).1 hok).2 hslot

/-- On one side of the machine the racking moves all needles alike. -/
theorem index_inj_of_slot {m : Needle} (hn : isIndex n.index = true) (hm : isIndex m.index = true)
    (hshift : (Value.ofFloat racking).floor? = some shift) (hside : n.bed.side = m.bed.side)
    (hslot : n.slot racking = .ok s) (hslot' : m.slot racking = .ok s) : n.index = m.index := by
  have h := ((slot_eq_ok_iff hn hshift).1 hslot).1
  have h' := ((slot_eq_ok_iff hm hshift).1 hslot').1
  unfold shifted at h h'
  rw [← hside] at h'
  cases hn : n.bed.side with
  | front =>
    rw [hn] at h h'
    exact h.symm.trans h'
  | back =>
    rw [hn] at h h'
    dsimp only at h h'
    omega

/-! ## The place of a needle -/

theorem rat?_ofInt {i : Int} (hi : isIndex i = true) :
    (Value.ofFloat (Float.ofInt i)).rat? = some (i : ℚ) :=
  rat?_of_whole (isHalf_index hi)

/-- The place of a needle that has a slot is exactly that slot. -/
theorem rat?_slotPosition (hn : isIndex n.index = true)
    (hshift : (Value.ofFloat racking).floor? = some shift) (hslot : n.slot racking = .ok s) :
    (Value.ofFloat (n.slotPosition racking)).rat? = some (s : ℚ) := by
  obtain ⟨rfl, hs⟩ := (slot_eq_ok_iff hn hshift).1 hslot
  rw [slotPosition_of_floor n hshift, rat?_ofInt hs]

/-- The same place comes of adding up index and shift as floating-point numbers. -/
theorem rat?_index_add_floor (hn : isIndex n.index = true)
    (hshift : (Value.ofFloat racking).floor? = some shift) (hside : n.bed.side = .back)
    (hslot : n.slot racking = .ok s) :
    (Value.ofFloat (Float.ofInt n.index + Racking.floor racking)).rat? = some (s : ℚ) := by
  obtain ⟨hs, hslot⟩ := (slot_eq_ok_iff hn hshift).1 hslot
  have hsum : n.shifted shift = n.index + shift := by rw [shifted, hside]
  rw [hsum] at hs hslot
  have hindex := isHalf_index hn
  rw [isIndex_iff] at hn hslot
  have hfloor : Racking.floor racking = Float.ofInt shift := by rw [Racking.floor, hshift]
  have hbounds : -2 ^ 52 < shift ∧ shift < 2 ^ 52 := by omega
  have hadd := hindex.add (isHalf_ofInt hbounds) (by omega)
  have hdouble : 2 * n.index + 2 * shift = 2 * s := by omega
  rw [hdouble] at hadd
  rw [hfloor]
  exact rat?_of_whole hadd

end Needle

/-! ## Needles that face each other -/

namespace Machine

open Needle

/-- Loops move between a front and a back needle, in either direction, just if the racking shifts
the back needle to the front one. -/
theorem splitPlace_eq {front back source target : Needle} (hfront : front.bed.side = .front)
    (hback : back.bed.side = .back)
    (hends : (source = front ∧ target = back) ∨ (source = back ∧ target = front))
    (hfrontIndex : isIndex front.index = true) (hbackIndex : isIndex back.index = true)
    {racking : Float} {shift : Int} (hshift : (Value.ofFloat racking).floor? = some shift)
    (withYarn : Bool) :
    splitPlace source target racking withYarn =
      (splitKind source target withYarn).bind fun kind =>
        if back.index + shift = front.index then .ok (kind, front.index)
        else if isIndex (back.index + shift) = true then .error (.misaligned source target racking)
        else .error (.slotOutOfRange back racking) := by
  have hslot : front.slot racking = .ok front.index := by
    rw [slot_eq hfrontIndex hshift, shifted, hfront, if_pos hfrontIndex]
  have hslot' : back.slot racking = if isIndex (back.index + shift) = true then
      .ok (back.index + shift) else .error (.slotOutOfRange back racking) := by
    rw [slot_eq hbackIndex hshift, shifted, hback]
  have hsides : source.bed.side ≠ target.bed.side := by
    rcases hends with ⟨rfl, rfl⟩ | ⟨rfl, rfl⟩ <;> simp [hfront, hback]
  unfold splitPlace
  cases splitKind source target withYarn with
  | error e => rfl
  | ok kind =>
    by_cases hin : isIndex (back.index + shift) = true
    · rw [if_pos hin] at hslot'
      by_cases heq : back.index + shift = front.index
      · rcases hends with ⟨rfl, rfl⟩ | ⟨rfl, rfl⟩ <;>
          simp [hsides, hslot, hslot', heq, bind, Except.bind, pure, Except.pure]
      · rcases hends with ⟨rfl, rfl⟩ | ⟨rfl, rfl⟩ <;>
          simp [hsides, hslot, hslot', hin, heq, Ne.symm heq, bind, Except.bind, throw, throwThe,
            MonadExceptOf.throw]
    · -- A back needle that is shifted off the machine faces no needle.
      rw [if_neg hin] at hslot'
      have hne : back.index + shift ≠ front.index := by
        intro heq
        rw [heq] at hin
        exact hin hfrontIndex
      rcases hends with ⟨rfl, rfl⟩ | ⟨rfl, rfl⟩ <;>
        simp [hsides, hslot, hslot', hin, hne, bind, Except.bind]

/-- Slots are exact under every finite racking, which is a rational number: the slot of a needle is
its index, with the racking rounded down added for a back needle, and there is none if the machine
has no slot of that number, however far off that is. The place of a needle that has a slot is the
same number. So no two needles on one side share a slot, and of two needles on opposite sides the
front one faces the back one if the latter is shifted to its index. -/
theorem slots_exact {racking : Float} {q : ℚ} (hracking : (Value.ofFloat racking).rat? = some q) :
    (∀ n : Needle, isIndex n.index = true →
      (n.longSlot racking = if isIndex (n.shifted ⌊q⌋) = true then .ok (n.shifted ⌊q⌋)
        else .error (.slotOutOfRange n racking)) ∧
      n.slot racking = n.longSlot racking ∧
      ∀ s, n.slot racking = .ok s →
        (Value.ofFloat (n.slotPosition racking)).rat? = some (s : ℚ) ∧
        (n.bed.side = .back →
          (Value.ofFloat (Float.ofInt n.index + Racking.floor racking)).rat? = some (s : ℚ))) ∧
    (∀ (n m : Needle) s, isIndex n.index = true → isIndex m.index = true →
      n.bed.side = m.bed.side → n.slot racking = .ok s → m.slot racking = .ok s →
      n.index = m.index) ∧
    ∀ (front back source target : Needle) withYarn, front.bed.side = .front →
      back.bed.side = .back → isIndex front.index = true → isIndex back.index = true →
      (source = front ∧ target = back) ∨ (source = back ∧ target = front) →
      splitPlace source target racking withYarn =
        (splitKind source target withYarn).bind fun kind =>
          if back.index + ⌊q⌋ = front.index then .ok (kind, front.index)
          else if isIndex (back.index + ⌊q⌋) = true then
            .error (.misaligned source target racking)
          else .error (.slotOutOfRange back racking) := by
  have hshift := floor?_of_rat? hracking
  refine ⟨?_, ?_, ?_⟩
  · intro n hn
    rw [longSlot_eq hn]
    exact ⟨slot_eq hn hshift, rfl, fun s hslot => ⟨rat?_slotPosition hn hshift hslot,
      fun hside => rat?_index_add_floor hn hshift hside hslot⟩⟩
  · intro n m s hn hm hside
    exact index_inj_of_slot hn hm hshift hside
  · intro front back source target withYarn hfront hback hfrontIndex hbackIndex hends
    exact splitPlace_eq hfront hback hends hfrontIndex hbackIndex hshift withYarn

/-- A racking of three quarters to the left shifts the back needles by a whole slot. -/
theorem slots_exact_left_of_zero :
    (Value.ofFloat (-0.75)).rat? = some (-3 / 4) ∧
      (⟨.back, 5⟩ : Needle).slot (-0.75) = .ok 4 ∧
      (Value.ofFloat ((⟨.back, 5⟩ : Needle).slotPosition (-0.75))).rat? = some 4 ∧
      splitPlace ⟨.back, 5⟩ ⟨.front, 4⟩ (-0.75) false = .ok (.xfer, 4) := by
  have hracking : (Value.ofFloat (-0.75)).rat? = some (-3 / 4) := by
    have hvalue : Value.ofFloat (-0.75) = .finite true ⟨3 * 2 ^ 51, -53, false⟩ := by decide
    rw [hvalue, Value.rat?]
    norm_num
  have hfloor : ⌊(-3 / 4 : ℚ)⌋ = -1 := by norm_num
  obtain ⟨hslots, -, hfaces⟩ := slots_exact hracking
  rw [hfloor] at hslots hfaces
  obtain ⟨hlong, hsame, hplace⟩ := hslots ⟨.back, 5⟩ rfl
  have hslot : (⟨.back, 5⟩ : Needle).slot (-0.75) = .ok 4 := hsame.trans hlong
  refine ⟨hracking, hslot, (hplace 4 hslot).1, ?_⟩
  exact hfaces ⟨.front, 4⟩ ⟨.back, 5⟩ ⟨.back, 5⟩ ⟨.front, 4⟩ false rfl rfl rfl rfl (.inr ⟨rfl, rfl⟩)

end Machine

end Knitting
