import Knitting.Scalar
import Mathlib

set_option autoImplicit false

/-! # Heights as numbers

Where a greatest height is looked for, the order of the heights should not matter. With numbers that
round it can: two zeros are at most each other and still differ in their signs. What does not depend
on the order is the height as a number. Two heights are the same number if each is at most the
other, or if neither can be compared at all (`Scalar.Same`). Of scalars it is asked that sums,
differences and comparisons respect this (`LawfulScalar`); then so does every greatest height
(`Scalar.greatest?_same`). -/

namespace Knitting

namespace Scalar

variable {α : Type} [Scalar α]

/-- Comparable with itself. -/
def IsNumber (a : α) : Prop := le a a = true

/-- The same as numbers. -/
def Same (a b : α) : Prop := (le a b = true ∧ le b a = true) ∨ (¬IsNumber a ∧ ¬IsNumber b)

end Scalar

open Scalar

/-- What is used of the arithmetic of heights. -/
class LawfulScalar (α : Type) [Scalar α] : Prop where
  isNumber_of_le {a b : α} : le a b = true → IsNumber a ∧ IsNumber b
  le_total {a b : α} : IsNumber a → IsNumber b → le a b = true ∨ le b a = true
  le_trans {a b c : α} : le a b = true → le b c = true → le a c = true
  same_add {a b : α} (c : α) : Same a b → Same (a + c) (b + c)
  same_sub {a b : α} (c : α) : Same a b → Same (a - c) (b - c)

namespace Scalar

variable {α : Type} [Scalar α]

/-! ## The same number -/

theorem Same.refl (a : α) : Same a a := by
  by_cases h : IsNumber a
  · exact .inl ⟨h, h⟩
  · exact .inr ⟨h, h⟩

theorem Same.symm {a b : α} (h : Same a b) : Same b a := by
  rcases h with ⟨hab, hba⟩ | ⟨ha, hb⟩
  · exact .inl ⟨hba, hab⟩
  · exact .inr ⟨hb, ha⟩

/-! ## Greatest numbers -/

theorem max_eq_or (a b : α) : max a b = a ∨ max a b = b := by
  unfold max
  split
  · exact .inr rfl
  · split
    · exact .inr rfl
    · exact .inl rfl

theorem le_max_left {a : α} (ha : IsNumber a) (b : α) : Scalar.le a (max a b) = true := by
  have hself : Scalar.le a a = true := ha
  unfold max
  rw [hself]
  split
  · next h => simp at h
  · split
    · next h => exact (Bool.and_eq_true_iff.1 h).1
    · exact hself

theorem greatest?_eq_none_iff {l : List α} : greatest? l = none ↔ l = [] := by
  cases l <;> simp [greatest?]

/-- One of some numbers that no other of them exceeds. Among what cannot be compared it is any. -/
structure IsTop (l : List α) (t : α) : Prop where
  mem : t ∈ l
  le : ∀ b ∈ l, IsNumber b → Scalar.le b t = true

/-- Two lists have the same numbers, in any order and as often as they like. -/
def SameNumbers (l l' : List α) : Prop :=
  (∀ a ∈ l, ∃ b ∈ l', Same a b) ∧ ∀ b ∈ l', ∃ a ∈ l, Same a b

theorem SameNumbers.symm {l l' : List α} (h : SameNumbers l l') : SameNumbers l' l := by
  constructor
  · intro b hb
    obtain ⟨a, ha, hab⟩ := h.2 b hb
    exact ⟨a, ha, hab.symm⟩
  · intro a ha
    obtain ⟨b, hb, hab⟩ := h.1 a ha
    exact ⟨b, hb, hab.symm⟩

theorem SameNumbers.trans_perm {l l' m : List α} (h : SameNumbers l l') (hperm : l'.Perm m) :
    SameNumbers l m := by
  constructor
  · intro a ha
    obtain ⟨b, hb, hab⟩ := h.1 a ha
    exact ⟨b, hperm.mem_iff.1 hb, hab⟩
  · intro b hb
    exact h.2 b (hperm.mem_iff.2 hb)

theorem sameNumbers_of_forall₂ {l l' : List α} (h : List.Forall₂ Same l l') :
    SameNumbers l l' := by
  induction h with
  | nil => exact ⟨nofun, nofun⟩
  | cons hab _ ih =>
    constructor
    · intro c hc
      rcases List.mem_cons.1 hc with rfl | hc
      · exact ⟨_, List.mem_cons_self, hab⟩
      · obtain ⟨d, hd, hcd⟩ := ih.1 c hc
        exact ⟨d, List.mem_cons_of_mem _ hd, hcd⟩
    · intro d hd
      rcases List.mem_cons.1 hd with rfl | hd
      · exact ⟨_, List.mem_cons_self, hab⟩
      · obtain ⟨c, hc, hcd⟩ := ih.2 d hd
        exact ⟨c, List.mem_cons_of_mem _ hc, hcd⟩

section Lawful

variable [LawfulScalar α]

open LawfulScalar

theorem Same.isNumber {a b : α} (h : Same a b) (ha : IsNumber a) : IsNumber b := by
  rcases h with ⟨hab, -⟩ | ⟨hnot, -⟩
  · exact (isNumber_of_le hab).2
  · exact absurd ha hnot

theorem Same.le {a b a' b' : α} (ha : Same a a') (hb : Same b b') (h : le a b = true) :
    le a' b' = true := by
  obtain ⟨hna, hnb⟩ := isNumber_of_le h
  have ha' : Scalar.le a' a = true := by
    rcases ha with ⟨-, ha'⟩ | ⟨hnot, -⟩
    · exact ha'
    · exact absurd hna hnot
  have hb' : Scalar.le b b' = true := by
    rcases hb with ⟨hb', -⟩ | ⟨hnot, -⟩
    · exact hb'
    · exact absurd hnb hnot
  exact le_trans ha' (le_trans h hb')

theorem Same.le_eq {a b a' b' : α} (ha : Same a a') (hb : Same b b') :
    Scalar.le a b = Scalar.le a' b' :=
  Bool.eq_iff_iff.2 ⟨ha.le hb, ha.symm.le hb.symm⟩

theorem Same.lt_eq {a b a' b' : α} (ha : Same a a') (hb : Same b b') : lt a b = lt a' b' := by
  rw [lt, lt, ha.le_eq hb, hb.le_eq ha]

theorem le_max_right (a : α) {b : α} (hb : IsNumber b) : Scalar.le b (max a b) = true := by
  have hself : Scalar.le b b = true := hb
  unfold max
  split
  · exact hself
  · next ha =>
    have ha : IsNumber a := by simpa [IsNumber] using ha
    split
    · exact hself
    · next h =>
      rcases le_total ha hb with hab | hba
      · simpa [lt, hab] using h
      · exact hba

theorem isTop_foldl_max (a : α) (l : List α) : IsTop (a :: l) (l.foldl max a) := by
  induction l generalizing a with
  | nil =>
    refine ⟨List.mem_cons_self, ?_⟩
    intro b hb hnumber
    obtain rfl := List.mem_singleton.1 hb
    exact hnumber
  | cons b l ih =>
    obtain ⟨hmem, hle⟩ := ih (max a b)
    rw [List.foldl_cons]
    constructor
    · rcases List.mem_cons.1 hmem with h | h
      · rw [h]
        rcases max_eq_or a b with hmax | hmax <;> simp [hmax]
      · exact List.mem_cons_of_mem _ (List.mem_cons_of_mem _ h)
    · -- What `max` gives is in front of the rest, and not below either of the two.
      have hfirst : ∀ {c : α}, Scalar.le c (max a b) = true →
          Scalar.le c (l.foldl max (max a b)) = true := by
        intro c hc
        exact le_trans hc (hle _ List.mem_cons_self (isNumber_of_le hc).2)
      intro c hc hnumber
      rcases List.mem_cons.1 hc with rfl | hc
      · exact hfirst (le_max_left hnumber b)
      · rcases List.mem_cons.1 hc with rfl | hc
        · exact hfirst (le_max_right a hnumber)
        · exact hle c (List.mem_cons_of_mem _ hc) hnumber

theorem isTop_greatest? {l : List α} {t : α} (h : greatest? l = some t) : IsTop l t := by
  cases l with
  | nil => simp [greatest?] at h
  | cons a l =>
    obtain rfl := Option.some.inj h
    exact isTop_foldl_max a l

/-- No number of a list exceeds the top of another with the same numbers. -/
theorem SameNumbers.le_top {l l' : List α} (h : SameNumbers l l') {a t' : α} (ha : a ∈ l)
    (hnumber : IsNumber a) (ht' : IsTop l' t') : Scalar.le a t' = true := by
  obtain ⟨b, hb, hab⟩ := h.1 a ha
  exact hab.symm.le (.refl t') (ht'.le b hb (hab.isNumber hnumber))

theorem SameNumbers.same_top {l l' : List α} (h : SameNumbers l l') {t t' : α} (ht : IsTop l t)
    (ht' : IsTop l' t') : Same t t' := by
  by_cases hnumber : IsNumber t
  · have hle := h.le_top ht.mem hnumber ht'
    exact .inl ⟨hle, h.symm.le_top ht'.mem (isNumber_of_le hle).2 ht⟩
  · refine .inr ⟨hnumber, ?_⟩
    intro hnumber'
    exact hnumber (isNumber_of_le (h.symm.le_top ht'.mem hnumber' ht)).2

/-- The greatest of the same numbers is the same number. -/
theorem greatest?_same {l l' : List α} (h : SameNumbers l l') :
    Option.Rel Same (greatest? l) (greatest? l') := by
  cases ht : greatest? l with
  | none =>
    obtain rfl := greatest?_eq_none_iff.1 ht
    have hnil : l' = [] := List.eq_nil_iff_forall_not_mem.2 fun b hb => by
      obtain ⟨a, ha, -⟩ := h.2 b hb
      exact List.not_mem_nil ha
    rw [hnil]
    exact .none
  | some t =>
    cases ht' : greatest? l' with
    | none =>
      obtain rfl := greatest?_eq_none_iff.1 ht'
      obtain ⟨b, hb, -⟩ := h.1 t (isTop_greatest? ht).mem
      exact absurd hb List.not_mem_nil
    | some t' => exact .some (h.same_top (isTop_greatest? ht) (isTop_greatest? ht'))

theorem greatest?_same_of_forall₂ {l l' : List α} (h : List.Forall₂ Same l l') :
    Option.Rel Same (greatest? l) (greatest? l') :=
  greatest?_same (sameNumbers_of_forall₂ h)

end Lawful

end Scalar

end Knitting
