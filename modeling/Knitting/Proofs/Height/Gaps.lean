import Knitting.Height

set_option autoImplicit false

/-! # What is recorded of heights

Every change of the recorded heights raises some places to a height, one place at a time or the same
part of the column and lane at all needles of a span (`HeightKey.InSpan`), and every lookup takes
the greatest height of some of them. Here is what each of the changes leaves at each place. For the
gaps to the right of the needles, which is where spans of yarn are recorded, the places of a span
are told by their indices (`HeightKey.IsGap`). -/

namespace Knitting

namespace HeightKey

/-- A place is that of a part of the column and a lane at a needle from `lo` to before `hi`. -/
def InSpan (k : HeightKey) (lo hi : Int) (orientation : Orientation) (lane : Nat) : Prop :=
  ∃ n, lo ≤ n ∧ n < hi ∧ k = place n orientation lane

theorem orientation_place (n n' : Int) (orientation : Orientation) (lane : Nat) :
    (place n orientation lane).orientation = (place n' orientation lane).orientation := by
  cases orientation <;> rfl

theorem lane_place (n : Int) (orientation : Orientation) (lane : Nat) :
    (place n orientation lane).lane = lane := by
  cases orientation <;> rfl

/-- The places of a span are all those from the first to the last. Those to the left of the needles
are recorded one needle further to the left, and that of the leftmost one twice. -/
theorem inSpan_iff {k : HeightKey} {lo hi : Int} {orientation : Orientation} {lane : Nat} :
    k.InSpan lo hi orientation lane ↔ lo < hi ∧
      k.orientation = (place lo orientation lane).orientation ∧ k.lane = lane ∧
      (place lo orientation lane).needle ≤ k.needle ∧
      k.needle ≤ (place (hi - 1) orientation lane).needle := by
  constructor
  · rintro ⟨n, hlo, hhi, rfl⟩
    refine ⟨by omega, orientation_place .., lane_place .., ?_⟩
    cases orientation <;> simp only [place] <;> omega
  · rintro ⟨hlt, ho, hlane, hfirst, hlast⟩
    obtain ⟨n, o, l⟩ := k
    obtain rfl : l = lane := hlane
    cases orientation with
    | leftOf =>
      obtain rfl : o = .rightOf := ho
      simp only [place] at hfirst hlast
      refine ⟨min (max (n + 1) lo) (hi - 1), by omega, by omega, ?_⟩
      simp only [place, mk.injEq, and_true]
      omega
    | _ =>
      obtain rfl := ho
      exact ⟨n, hfirst, by simp only [place] at hlast; omega, rfl⟩

instance (k : HeightKey) (lo hi : Int) (orientation : Orientation) (lane : Nat) :
    Decidable (k.InSpan lo hi orientation lane) :=
  decidable_of_iff' _ inSpan_iff

theorem inSpan_succ {k : HeightKey} {lo : Int} {count : Nat} {orientation : Orientation}
    {lane : Nat} : k.InSpan lo (lo + (count + 1 : Nat)) orientation lane ↔
      k.InSpan lo (lo + count) orientation lane ∨ k = place (lo + count) orientation lane := by
  constructor
  · rintro ⟨n, hlo, hhi, hk⟩
    by_cases hn : n = lo + count
    · exact .inr (hn ▸ hk)
    · exact .inl ⟨n, hlo, by omega, hk⟩
  · rintro (⟨n, hlo, hhi, hk⟩ | hk)
    · exact ⟨n, hlo, by omega, hk⟩
    · exact ⟨_, by omega, by omega, hk⟩

/-- A place is a gap between two indices in one lane. -/
def IsGap (k : HeightKey) (lo hi : Int) (lane : Nat) : Prop :=
  k.orientation = .rightOf ∧ k.lane = lane ∧ lo ≤ k.needle ∧ k.needle < hi

instance (k : HeightKey) (lo hi : Int) (lane : Nat) : Decidable (k.IsGap lo hi lane) :=
  inferInstanceAs (Decidable (_ ∧ _))

theorem inSpan_rightOf_iff {k : HeightKey} {lo hi : Int} {lane : Nat} :
    k.InSpan lo hi .rightOf lane ↔ k.IsGap lo hi lane := by
  constructor
  · rintro ⟨n, hlo, hhi, rfl⟩
    exact ⟨rfl, rfl, hlo, hhi⟩
  · rintro ⟨ho, hlane, hlo, hhi⟩
    refine ⟨k.needle, hlo, hhi, ?_⟩
    cases k
    simp_all [place]

end HeightKey

namespace HeightIndex

open Scalar

variable {α : Type} [Scalar α]

/-- What stays of a height and another at the same place. -/
def raised (there : Option α) (height : α) : α :=
  match there with
  | none => height
  | some there => if lt there height then height else there

/-- To raise to the same height again changes nothing. -/
theorem raised_raised (there : Option α) (height : α) :
    raised (some (raised there height)) height = raised there height := by
  cases there with
  | none => exact ite_self height
  | some there =>
    by_cases hlt : lt there height = true
    · simp [raised, hlt]
    · simp [raised, hlt]

theorem get?_raise (h : HeightIndex α) (key k : HeightKey) (height : α) :
    (h.raise key height).get? k = if k = key then some (raised (h.get? key) height)
      else h.get? k := by
  unfold raise
  cases hkey : h.get? key with
  | none => exact Table.get?_insert ..
  | some there =>
    by_cases hlt : lt there height = true
    · simp only [hlt, if_true, raised]
      exact Table.get?_insert ..
    · simp only [hlt, raised]
      by_cases hk : k = key
      · simp [hk, hkey]
      · simp [hk]

theorem get?_foldl_raise (h : HeightIndex α) (lo : Int) (orientation : Orientation) (lane : Nat)
    (height : α) (count : Nat) (k : HeightKey) :
    ((List.range count).foldl (fun h (i : Nat) => h.raise (.place (lo + i) orientation lane) height)
        h).get? k =
      if k.InSpan lo (lo + count) orientation lane then some (raised (h.get? k) height)
      else h.get? k := by
  induction count with
  | zero =>
    have hnone : ¬k.InSpan lo (lo + (0 : Nat)) orientation lane := by
      rintro ⟨n, hlo, hhi, -⟩
      omega
    rw [if_neg hnone]
    rfl
  | succ count ih =>
    rw [List.range_succ, List.foldl_append, List.foldl_cons, List.foldl_nil, get?_raise]
    simp only [HeightKey.inSpan_succ]
    by_cases hk : k = .place (lo + count) orientation lane
    · -- This place may have been raised before.
      rw [if_pos hk, if_pos (.inr hk), ← hk, ih]
      split
      · rw [raised_raised]
      · rfl
    · simp only [hk, or_false, if_false, ih]

/-- What a change of a span leaves at each place. -/
theorem get?_raiseRange_span (h : HeightIndex α) (lo hi : Int) (orientation : Orientation)
    (lane : Nat) (height : α) (k : HeightKey) :
    (h.raiseRange lo hi orientation lane height).get? k =
      if k.InSpan lo hi orientation lane then some (raised (h.get? k) height) else h.get? k := by
  have hcount : k.InSpan lo (lo + (hi - lo).toNat) orientation lane ↔
      k.InSpan lo hi orientation lane := by
    constructor
    · rintro ⟨n, hlo, hhi, hk⟩
      exact ⟨n, hlo, by omega, hk⟩
    · rintro ⟨n, hlo, hhi, hk⟩
      exact ⟨n, hlo, by omega, hk⟩
  rw [raiseRange, get?_foldl_raise]
  simp only [hcount]

theorem get?_raiseRange (h : HeightIndex α) (lo hi : Int) (lane : Nat) (height : α)
    (k : HeightKey) :
    (h.raiseRange lo hi .rightOf lane height).get? k =
      if k.IsGap lo hi lane then some (raised (h.get? k) height) else h.get? k := by
  rw [get?_raiseRange_span]
  simp only [HeightKey.inSpan_rightOf_iff]

/-- The greatest height in a span is the greatest of what is recorded at its places. -/
theorem exists_rangeMax_eq_span (h : HeightIndex α) (lo hi : Int) (orientation : Orientation)
    (lane : Nat) : ∃ heights, h.rangeMax lo hi orientation lane = greatest? heights ∧
      ∀ v, v ∈ heights ↔ ∃ k, k.InSpan lo hi orientation lane ∧ h.get? k = some v := by
  unfold rangeMax
  by_cases hlt : lo < hi
  · rw [if_pos hlt]
    refine ⟨_, rfl, ?_⟩
    intro v
    simp only [List.mem_map, List.mem_filter, Prod.exists, Bool.and_eq_true, decide_eq_true_iff,
      HeightKey.inSpan_iff]
    constructor
    · rintro ⟨k, v', ⟨hmem, ⟨⟨ho, hlane⟩, hlo⟩, hhi⟩, rfl⟩
      exact ⟨k, ⟨hlt, ho, hlane, hlo, hhi⟩, Table.get?_eq_some_iff.2 hmem⟩
    · rintro ⟨k, ⟨-, ho, hlane, hlo, hhi⟩, hget⟩
      exact ⟨k, v, ⟨Table.get?_eq_some_iff.1 hget, ⟨⟨ho, hlane⟩, hlo⟩, hhi⟩, rfl⟩
  · rw [if_neg hlt]
    refine ⟨[], rfl, ?_⟩
    intro v
    simp only [List.not_mem_nil, false_iff, not_exists, not_and]
    rintro k ⟨n, hlo, hhi, -⟩
    omega

/-- The greatest height in some gaps is the greatest of what is recorded there. -/
theorem exists_rangeMax_eq (h : HeightIndex α) (lo hi : Int) (lane : Nat) :
    ∃ heights, h.rangeMax lo hi .rightOf lane = greatest? heights ∧
      ∀ v, v ∈ heights ↔ ∃ k, k.IsGap lo hi lane ∧ h.get? k = some v := by
  simpa only [HeightKey.inSpan_rightOf_iff] using h.exists_rangeMax_eq_span lo hi .rightOf lane

end HeightIndex

end Knitting
