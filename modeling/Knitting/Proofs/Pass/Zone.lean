import Knitting.Pass.Schedule
import Knitting.Proofs.Needle.Syntax
import Knitting.Proofs.Number.Half

set_option autoImplicit false

/-! # Landing zones

Where a carrier comes to rest after a kick is half a slot to one side of the kick's slot. With any
clearance at all it is then in the landing zone on that side and in no other
(`inLandingZone_kicked_iff`), and what is in a landing zone needs some clearance
(`one_le_of_inLandingZone`). -/

namespace Knitting

open Number

/-- A carrier is parked in the landing zone of a slot. -/
def Carrier.InZone (c : Carrier) (racking : Float) (slot : Int) (direction : Direction) : Prop :=
  ∃ last, c.last = some last ∧ inLandingZone direction (Float.ofInt slot)
    (last.parkedSlot racking) (Float.ofInt last.stoppingDistance) = true

instance (c : Carrier) (racking : Float) (slot : Int) (direction : Direction) :
    Decidable (c.InZone racking slot direction) :=
  inferInstanceAs (Decidable (∃ last ∈ c.last, _))

theorem isHalf_index {n : Int} (hn : isIndex n = true) : IsHalf (Float.ofInt n) (2 * n) := by
  rw [isIndex_iff] at hn
  exact isHalf_ofInt (by omega)

theorem inLandingZone_right {s parked reach : Float} :
    inLandingZone .right s parked reach = true ↔ s < parked ∧ parked ≤ s + reach := by
  simp only [inLandingZone, Bool.and_eq_true, decide_eq_true_eq]

theorem inLandingZone_left {s parked reach : Float} :
    inLandingZone .left s parked reach = true ↔ parked < s ∧ s - reach ≤ parked := by
  simp only [inLandingZone, Bool.and_eq_true, decide_eq_true_eq]

theorem inLandingZone_undirected {s parked reach : Float} :
    inLandingZone .undirected s parked reach = false := rfl

/-- The two landing zones of a slot have nothing in common. -/
theorem Carrier.InZone.not_opposite {c : Carrier} {racking : Float} {slot : Int}
    {direction : Direction} (h : c.InZone racking slot direction) :
    ¬c.InZone racking slot direction.opposite := by
  rintro ⟨last', hlast', hzone'⟩
  obtain ⟨last, hlast, hzone⟩ := h
  obtain rfl := Option.some.inj (hlast.symm.trans hlast')
  cases direction with
  | left => exact not_lt_of_lt (inLandingZone_left.1 hzone).1 (inLandingZone_right.1 hzone').1
  | right => exact not_lt_of_lt (inLandingZone_right.1 hzone).1 (inLandingZone_left.1 hzone').1
  | undirected => simp [inLandingZone_undirected] at hzone

/-- A carrier in a landing zone needs a clearance of at least one slot. -/
theorem one_le_of_inLandingZone {direction : Direction} {slot reach : Int} {parked : Float}
    (hslot : isIndex slot = true) (hreach : 0 ≤ reach)
    (h : inLandingZone direction (Float.ofInt slot) parked (Float.ofInt reach) = true) :
    1 ≤ reach := by
  rcases Int.lt_or_eq_of_le hreach with hpos | rfl
  · exact hpos
  have hs := isHalf_index hslot
  have hzero : IsHalf (Float.ofInt 0) 0 := isHalf_index (by decide)
  rw [isIndex_iff] at hslot
  -- The bounds of a zone without clearance are the slot itself.
  have hadd := hs.add hzero (by omega)
  have hsub := hs.sub hzero (by omega)
  rw [Int.add_zero] at hadd
  rw [Int.sub_zero] at hsub
  cases direction with
  | left =>
    obtain ⟨hbelow, habove⟩ := inLandingZone_left.1 h
    exact absurd ((hsub.le_congr hs parked).2.1 habove) (not_le_of_lt hbelow)
  | right =>
    obtain ⟨habove, hbelow⟩ := inLandingZone_right.1 h
    exact absurd ((hadd.le_congr hs parked).1.1 hbelow) (not_le_of_lt habove)
  | undirected => simp [inLandingZone_undirected] at h

theorem parkedSlot_front_right (slot reach : Int) (racking : Float) :
    LastStitch.parkedSlot ⟨.front slot, .right, reach⟩ racking = Float.ofInt slot + 0.5 := rfl

theorem parkedSlot_front_left (slot reach : Int) (racking : Float) :
    LastStitch.parkedSlot ⟨.front slot, .left, reach⟩ racking = Float.ofInt slot - 0.5 := rfl

/-- A carrier that was kicked in a direction is in the landing zone on that side, if it needs any
clearance, and not in the other one. -/
theorem inLandingZone_kicked_iff {slot reach : Int} (hslot : isIndex slot = true)
    (hreach : isIndex reach = true) (racking : Float) {direction : Direction}
    (hdirection : direction ≠ .undirected) (side : Direction) :
    inLandingZone side (Float.ofInt slot)
        (LastStitch.parkedSlot ⟨.front slot, direction, reach⟩ racking) (Float.ofInt reach) = true ↔
      side = direction ∧ 1 ≤ reach := by
  have hs := isHalf_index hslot
  have hr := isHalf_index hreach
  rw [isIndex_iff] at hslot hreach
  have hadd := hs.add hr (by omega)
  have hsub := hs.sub hr (by omega)
  -- Half a slot off the slot, it is within reach of every clearance of a slot or more.
  cases direction with
  | left =>
    have hparked := hs.sub isHalf_half (by omega)
    rw [parkedSlot_front_left]
    cases side with
    | left =>
      rw [inLandingZone_left, hparked.lt_iff hs, hsub.le_iff hparked]
      simp only [true_and]
      omega
    | right =>
      rw [inLandingZone_right, hs.lt_iff hparked]
      simp only [reduceCtorEq, false_and, iff_false]
      omega
    | undirected => simp [inLandingZone_undirected]
  | right =>
    have hparked := hs.add isHalf_half (by omega)
    rw [parkedSlot_front_right]
    cases side with
    | left =>
      rw [inLandingZone_left, hparked.lt_iff hs]
      simp only [reduceCtorEq, false_and, iff_false]
      omega
    | right =>
      rw [inLandingZone_right, hs.lt_iff hparked, hparked.le_iff hadd]
      simp only [true_and]
      omega
    | undirected => simp [inLandingZone_undirected]
  | undirected => exact absurd rfl hdirection

end Knitting
