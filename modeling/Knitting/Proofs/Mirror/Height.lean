import Knitting.Proofs.Height.Gaps
import Knitting.Proofs.Number.Ordered
import Mathlib

set_option autoImplicit false

/-! # Heights in a mirror

Exchanging left and right turns the needle at index `i` into the one at `-i`. The gap to the right
of a needle becomes the gap to the left of its image, which is recorded as the gap to the right of
the needle before: gap `i` becomes gap `-i - 1` (`HeightKey.mirror`). Recorded heights are the
mirror image of others if at every place they are the same number as at its image
(`HeightIndex.Mirrors`). What is recorded keeps this, and what is looked up does not tell the
difference. -/

namespace Knitting

/-! ## Places -/

@[simp] theorem Direction.opposite_inj {direction direction' : Direction} :
    direction.opposite = direction'.opposite ↔ direction = direction' :=
  (Function.LeftInverse.injective opposite_opposite).eq_iff

namespace Needle

/-- The needle as far on the other side of needle zero. -/
def mirror (n : Needle) : Needle := ⟨n.bed, -n.index⟩

@[simp] theorem bed_mirror (n : Needle) : n.mirror.bed = n.bed := rfl

@[simp] theorem index_mirror (n : Needle) : n.mirror.index = -n.index := rfl

@[simp] theorem mirror_mirror (n : Needle) : n.mirror.mirror = n := by
  rw [mirror, bed_mirror, index_mirror, Int.neg_neg]

theorem mirror_injective : Function.Injective mirror :=
  Function.LeftInverse.injective mirror_mirror

@[simp] theorem mirror_inj {n m : Needle} : n.mirror = m.mirror ↔ n = m :=
  mirror_injective.eq_iff

end Needle

namespace HeightKey

/-- The same part of the column in the mirror. -/
def mirror (k : HeightKey) : HeightKey :=
  match k.orientation with
  | .leftOf => ⟨-k.needle + 1, .leftOf, k.lane⟩
  | .rightOf => ⟨-k.needle - 1, .rightOf, k.lane⟩
  | o => ⟨-k.needle, o, k.lane⟩

@[simp] theorem mirror_mirror (k : HeightKey) : k.mirror.mirror = k := by
  obtain ⟨needle, orientation, lane⟩ := k
  cases orientation <;> simp [mirror]

@[simp] theorem mirror_inj {k l : HeightKey} : k.mirror = l.mirror ↔ k = l :=
  (Function.LeftInverse.injective mirror_mirror).eq_iff

theorem mirror_place_ofSide (i : Int) (side : Side) (lane : Nat) :
    (place i (.ofSide side) lane).mirror = place (-i) (.ofSide side) lane := by
  cases side <;> rfl

/-- The gaps between two indices are the gaps between their images, which come the other way
round. -/
theorem isGap_mirror {k : HeightKey} {lo hi : Int} {lane : Nat} :
    k.mirror.IsGap (-hi) (-lo) lane ↔ k.IsGap lo hi lane := by
  obtain ⟨needle, orientation, l⟩ := k
  unfold IsGap
  cases orientation with
  | rightOf =>
    simp only [mirror, true_and]
    omega
  | _ => simp [mirror]

end HeightKey

namespace HeightIndex

open Scalar

variable {α : Type} [Scalar α]

/-! ## Mirrored heights -/

/-- At every place the same height as at its image. -/
def Mirrors (h h' : HeightIndex α) : Prop := ∀ k, Option.Rel Same (h.get? k) (h'.get? k.mirror)

theorem mirrors_empty : (empty : HeightIndex α).Mirrors empty := fun _ => .none

variable [LawfulScalar α]

theorem raised_same {there there' : Option α} (hthere : Option.Rel Same there there')
    {height height' : α} (hheight : Same height height') :
    Same (raised there height) (raised there' height') := by
  cases hthere with
  | none => exact hheight
  | some h =>
    simp only [raised, h.lt_eq hheight]
    split
    · exact hheight
    · exact h

theorem Mirrors.raise {h h' : HeightIndex α} (hm : h.Mirrors h') (key : HeightKey)
    {height height' : α} (hheight : Same height height') :
    (h.raise key height).Mirrors (h'.raise key.mirror height') := by
  intro k
  rw [get?_raise, get?_raise]
  simp only [HeightKey.mirror_inj]
  split
  · exact .some (raised_same (hm key) hheight)
  · exact hm k

theorem Mirrors.raiseRange {h h' : HeightIndex α} (hm : h.Mirrors h') (lo hi : Int) (lane : Nat)
    {height height' : α} (hheight : Same height height') :
    (h.raiseRange lo hi .rightOf lane height).Mirrors
      (h'.raiseRange (-hi) (-lo) .rightOf lane height') := by
  intro k
  rw [get?_raiseRange, get?_raiseRange]
  simp only [HeightKey.isGap_mirror]
  split
  · exact .some (raised_same (hm k) hheight)
  · exact hm k

/-- The greatest height between two indices is found between their images. -/
theorem Mirrors.rangeMax {h h' : HeightIndex α} (hm : h.Mirrors h') (lo hi : Int) (lane : Nat) :
    Option.Rel Same (h.rangeMax lo hi .rightOf lane)
      (h'.rangeMax (-hi) (-lo) .rightOf lane) := by
  obtain ⟨heights, hmax, hmem⟩ := h.exists_rangeMax_eq lo hi lane
  obtain ⟨heights', hmax', hmem'⟩ := h'.exists_rangeMax_eq (-hi) (-lo) lane
  rw [hmax, hmax']
  refine greatest?_same ⟨?_, ?_⟩
  · intro v hv
    obtain ⟨k, hk, hget⟩ := (hmem v).1 hv
    have hrel := hm k
    rw [hget] at hrel
    generalize hget' : h'.get? k.mirror = there at hrel
    cases hrel with
    | some hsame => exact ⟨_, (hmem' _).2 ⟨k.mirror, HeightKey.isGap_mirror.2 hk, hget'⟩, hsame⟩
  · intro v' hv'
    obtain ⟨k, hk, hget'⟩ := (hmem' v').1 hv'
    have hrel := hm k.mirror
    rw [HeightKey.mirror_mirror, hget'] at hrel
    generalize hget : h.get? k.mirror = there at hrel
    cases hrel with
    | some hsame =>
      refine ⟨_, (hmem _).2 ⟨k.mirror, HeightKey.isGap_mirror.1 ?_, hget⟩, hsame⟩
      rwa [HeightKey.mirror_mirror]

theorem lift_same {floor floor' : α} (hfloor : Same floor floor') {highest highest' : Option α}
    (hhighest : Option.Rel Same highest highest') (epsilon : α) :
    Same (lift floor highest epsilon) (lift floor' highest' epsilon) := by
  cases hhighest with
  | none => exact hfloor
  | some h =>
    simp only [lift, hfloor.le_eq h]
    split
    · exact LawfulScalar.same_add epsilon h
    · exact hfloor

theorem Mirrors.clearSpan {h h' : HeightIndex α} (hm : h.Mirrors h') {floor floor' : α}
    (hfloor : Same floor floor') (lo hi : Int) (lane : Nat) (epsilon : α) :
    Same (h.clearSpan floor lo hi lane epsilon)
      (h'.clearSpan floor' (-hi) (-lo) lane epsilon) :=
  lift_same hfloor (hm.rangeMax lo hi lane) epsilon

theorem Mirrors.clearLanes {h h' : HeightIndex α} (hm : h.Mirrors h') {floor floor' : α}
    (hfloor : Same floor floor') (needle : Int) (lanes : List Nat) (epsilon : α) :
    Same (h.clearLanes floor needle lanes epsilon)
      (h'.clearLanes floor' (-needle) lanes epsilon) := by
  refine lift_same hfloor (greatest?_same_of_forall₂ ?_) epsilon
  refine List.rel_filterMap ?_ (List.forall₂_same.2 fun lane _ => rfl)
  rintro lane _ rfl
  exact hm (.place needle .corridor lane)

end HeightIndex

end Knitting
