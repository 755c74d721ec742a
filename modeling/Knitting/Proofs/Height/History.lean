import Knitting.Proofs.Bounds.Height
import Knitting.Proofs.Height.Gaps
import Knitting.Proofs.Number.Single

set_option autoImplicit false

/-! # Recorded heights and their history

Heights are recorded by calls that raise one place or a span of places. Whatever calls were made,
what is recorded at a place is the greatest height that it was ever raised to
(`HeightIndex.Records.after`), and what a span answers is the greatest of what is recorded at its
places (`HeightIndex.greatest_rangeMax`). Both are so for numbers only: what cannot be compared
keeps its place whatever comes later. -/

namespace Knitting

open Scalar

variable {α : Type} [Scalar α]

/-! ## Greatest numbers -/

/-- An answer is the greatest of some numbers, or that there are none. -/
def Greatest (S : α → Prop) : Option α → Prop
  | none => ∀ v, ¬S v
  | some top => S top ∧ ∀ v, S v → Scalar.le v top = true

/-- To take in one more number keeps the greatest of all. -/
theorem Greatest.raised [LawfulScalar α] {S : α → Prop} {there : Option α} (h : Greatest S there)
    {height : α} (hheight : IsNumber height) :
    Greatest (fun v => S v ∨ v = height) (some (HeightIndex.raised there height)) := by
  cases there with
  | none =>
    refine ⟨.inr rfl, ?_⟩
    rintro v (hv | rfl)
    · exact absurd hv (h v)
    · exact hheight
  | some top =>
    obtain ⟨htop, hle⟩ := h
    have hnumber : IsNumber top := hle top htop
    by_cases hlt : lt top height = true
    · have habove : Scalar.le top height = true := (Bool.and_eq_true_iff.1 hlt).1
      simp only [HeightIndex.raised, hlt, if_true]
      refine ⟨.inr rfl, ?_⟩
      rintro v (hv | rfl)
      · exact LawfulScalar.le_trans (hle v hv) habove
      · exact hheight
    · have hbelow : Scalar.le height top = true := by
        rcases LawfulScalar.le_total hnumber hheight with h | h
        · simpa [lt, h] using hlt
        · exact h
      simp only [HeightIndex.raised, hlt]
      refine ⟨.inl htop, ?_⟩
      rintro v (hv | rfl)
      · exact hle v hv
      · exact hbelow

theorem Greatest.congr {S S' : α → Prop} (hS : ∀ v, S v ↔ S' v) {o : Option α}
    (h : Greatest S o) : Greatest S' o := by
  rwa [← funext fun v => propext (hS v)]

theorem greatest_greatest? [LawfulScalar α] {l : List α} (hnumbers : ∀ v ∈ l, IsNumber v) :
    Greatest (· ∈ l) (greatest? l) := by
  cases h : greatest? l with
  | none =>
    rw [greatest?_eq_none_iff.1 h]
    exact fun v => List.not_mem_nil
  | some top =>
    have htop := isTop_greatest? h
    exact ⟨htop.mem, fun v hv => htop.le v hv (hnumbers v hv)⟩

namespace HeightIndex

/-! ## Calls -/

/-- A call that records a height. -/
inductive Call (α : Type) where
  /-- At one place. -/
  | place (key : HeightKey) (height : α)
  /-- At all needles from `lo` to before `hi`. -/
  | span (lo hi : Int) (orientation : Orientation) (lane : Nat) (height : α)

namespace Call

def height : Call α → α
  | place _ height => height
  | span _ _ _ _ height => height

/-- A call raises a place. -/
def Covers : Call α → HeightKey → Prop
  | place key _, k => k = key
  | span lo hi orientation lane _, k => k.InSpan lo hi orientation lane

instance (c : Call α) (k : HeightKey) : Decidable (c.Covers k) :=
  match c with
  | place key _ => inferInstanceAs (Decidable (k = key))
  | span lo hi orientation lane _ => inferInstanceAs (Decidable (k.InSpan lo hi orientation lane))

def apply : Call α → HeightIndex α → HeightIndex α
  | place key height, h => h.raise key height
  | span lo hi orientation lane height, h => h.raiseRange lo hi orientation lane height

theorem get?_apply (c : Call α) (h : HeightIndex α) (k : HeightKey) : (c.apply h).get? k =
    if c.Covers k then some (raised (h.get? k) c.height) else h.get? k := by
  cases c with
  | place key height =>
    rw [apply, get?_raise]
    by_cases hk : k = key
    · simp [Covers, Call.height, hk]
    · simp [Covers, hk]
  | span lo hi orientation lane height => exact h.get?_raiseRange_span ..

end Call

/-- The recorded heights after some calls, when nothing was recorded before. -/
def after (calls : List (Call α)) : HeightIndex α := calls.foldl (fun h c => c.apply h) .empty

/-- Some call has raised a place to a height. -/
def RaisedTo (calls : List (Call α)) (k : HeightKey) (v : α) : Prop :=
  ∃ c ∈ calls, c.Covers k ∧ v = c.height

/-! ## What is recorded -/

/-- At each place the greatest height is recorded that some calls have raised it to. -/
def Records (h : HeightIndex α) (calls : List (Call α)) : Prop :=
  ∀ k, Greatest (RaisedTo calls k) (h.get? k)

variable {h : HeightIndex α} {calls : List (Call α)}

theorem records_empty : (empty : HeightIndex α).Records [] := by
  rintro k v ⟨c, hc, -⟩
  exact List.not_mem_nil hc

theorem Records.apply [LawfulScalar α] (hrecords : h.Records calls) {c : Call α}
    (hc : IsNumber c.height) : (c.apply h).Records (calls ++ [c]) := by
  intro k
  rw [Call.get?_apply]
  have hraised : ∀ v, RaisedTo (calls ++ [c]) k v ↔
      RaisedTo calls k v ∨ c.Covers k ∧ v = c.height := by
    intro v
    simp [RaisedTo, or_and_right, exists_or]
  split
  · next hcovers =>
    refine ((hrecords k).raised hc).congr ?_
    intro v
    rw [hraised]
    simp [hcovers]
  · next hcovers =>
    refine (hrecords k).congr ?_
    intro v
    rw [hraised]
    simp [hcovers]

/-- What is recorded is the greatest height of the whole history. -/
theorem Records.after [LawfulScalar α] (hcalls : ∀ c ∈ calls, IsNumber c.height) :
    (HeightIndex.after calls).Records calls := by
  induction calls using List.reverseRecOn with
  | nil => exact records_empty
  | append_singleton calls c ih =>
    rw [HeightIndex.after, List.foldl_append]
    exact (ih fun c hc => hcalls c (List.mem_append_left _ hc)).apply
      (hcalls c (List.mem_append_right _ List.mem_cons_self))

/-- Where all calls are made with numbers, only numbers are recorded. -/
theorem Records.isNumber (hrecords : h.Records calls) {k : HeightKey} {v : α}
    (hv : h.get? k = some v) : IsNumber v := by
  have hgreatest := hrecords k
  rw [hv] at hgreatest
  exact hgreatest.2 v hgreatest.1

/-! ## What a span answers -/

/-- A height is recorded at a place of a span. -/
def RecordedIn (h : HeightIndex α) (lo hi : Int) (orientation : Orientation) (lane : Nat) (v : α) :
    Prop :=
  ∃ n, lo ≤ n ∧ n < hi ∧ h.get? (.place n orientation lane) = some v

/-- A span answers with the greatest of what is recorded at its places. -/
theorem greatest_rangeMax [LawfulScalar α] (hnumbers : ∀ k v, h.get? k = some v → IsNumber v)
    (lo hi : Int) (orientation : Orientation) (lane : Nat) :
    Greatest (h.RecordedIn lo hi orientation lane) (h.rangeMax lo hi orientation lane) := by
  obtain ⟨heights, hmax, hmem⟩ := h.exists_rangeMax_eq_span lo hi orientation lane
  have hin : ∀ v, v ∈ heights ↔ h.RecordedIn lo hi orientation lane v := by
    intro v
    rw [hmem]
    constructor
    · rintro ⟨_, ⟨n, hlo, hhi, rfl⟩, hv⟩
      exact ⟨n, hlo, hhi, hv⟩
    · rintro ⟨n, hlo, hhi, hv⟩
      exact ⟨_, ⟨n, hlo, hhi, rfl⟩, hv⟩
  rw [hmax]
  refine (greatest_greatest? ?_).congr hin
  intro v hv
  obtain ⟨k, -, hv⟩ := (hmem v).1 hv
  exact hnumbers k v hv

/-- A height is raised no lower than to what it is raised to. -/
theorem both_le_raised [LawfulScalar α] {there : Option α} {height : α} (hheight : IsNumber height)
    (hthere : ∀ v, there = some v → IsNumber v) :
    Scalar.le height (raised there height) = true ∧
      ∀ v, there = some v → Scalar.le v (raised there height) = true := by
  cases there with
  | none => exact ⟨hheight, nofun⟩
  | some there =>
    have hnumber := hthere there rfl
    have hgreatest : Greatest (· = there) (some there) :=
      ⟨rfl, fun v hv => by rw [hv]; exact hnumber⟩
    obtain ⟨-, hle⟩ := hgreatest.raised hheight
    exact ⟨hle _ (.inr rfl), fun v hv => hle v (.inl (Option.some.inj hv).symm)⟩

/-- A height that clears a span is the one asked for if nothing there reaches it. Else it is just
above the greatest. -/
theorem clearSpan_cases [LawfulScalar α] (hnumbers : ∀ k v, h.get? k = some v → IsNumber v)
    {floor : α} (hfloor : IsNumber floor) (lo hi : Int) (lane : Nat) (epsilon : α) :
    ((∀ v, h.RecordedIn lo hi .rightOf lane v → lt v floor = true) →
      h.clearSpan floor lo hi lane epsilon = floor) ∧
    (¬(∀ v, h.RecordedIn lo hi .rightOf lane v → lt v floor = true) →
      ∃ top, Greatest (h.RecordedIn lo hi .rightOf lane) (some top) ∧
        h.clearSpan floor lo hi lane epsilon = top + epsilon) := by
  have hgreatest := greatest_rangeMax hnumbers lo hi .rightOf lane
  unfold clearSpan
  cases htop : h.rangeMax lo hi .rightOf lane with
  | none =>
    rw [htop] at hgreatest
    exact ⟨fun _ => rfl, fun hreached => absurd (fun v hv => absurd hv (hgreatest v)) hreached⟩
  | some top =>
    rw [htop] at hgreatest
    obtain ⟨hrecorded, hle⟩ := hgreatest
    by_cases hreaches : Scalar.le floor top = true
    · have hclears : lift floor (some top) epsilon = top + epsilon := by simp [lift, hreaches]
      constructor
      · intro hbelow
        have hlt := hbelow top hrecorded
        simp [lt, hreaches] at hlt
      · intro _
        exact ⟨top, ⟨hrecorded, hle⟩, hclears⟩
    · have hfree : lift floor (some top) epsilon = floor := by simp [lift, hreaches]
      refine ⟨fun _ => hfree, fun hreached => absurd ?_ hreached⟩
      -- The greatest is below, and so is everything.
      intro v hv
      have hvfloor : ¬Scalar.le floor v = true := fun h =>
        hreaches (LawfulScalar.le_trans h (hle v hv))
      rcases LawfulScalar.le_total (LawfulScalar.isNumber_of_le (hle v hv)).1 hfloor with h | h
      · simp [lt, h, hvfloor]
      · exact absurd h hvfloor

/-! ## The whole index -/

/-- What is recorded is the history of all calls: the greatest height at each place, which no call
lowers and which only a call for that place can raise. A span answers with the greatest height at
its places, and for needles of the machine it has one range of places to look at. To raise a span
leaves none of its places lower than that. A height clears a span if nothing there reaches it, and
is else put above the greatest. -/
theorem recorded_of_history [LawfulScalar α] (calls : List (Call α))
    (hcalls : ∀ c ∈ calls, IsNumber c.height) :
    (∀ k, Greatest (RaisedTo calls k) ((after calls).get? k)) ∧
    (∀ (c : Call α) k, IsNumber c.height →
      (¬c.Covers k → (c.apply (after calls)).get? k = (after calls).get? k) ∧
      ∀ v, (after calls).get? k = some v →
        ∃ v', (c.apply (after calls)).get? k = some v' ∧ Scalar.le v v' = true) ∧
    (∀ lo hi orientation lane,
      Greatest ((after calls).RecordedIn lo hi orientation lane)
        ((after calls).rangeMax lo hi orientation lane) ∧
      (isIndex lo = true → isIndex hi = true → (after calls).tryRangeMax lo hi orientation lane =
        .ok ((after calls).rangeMax lo hi orientation lane)) ∧
      ∀ height n, IsNumber height → lo ≤ n → n < hi →
        ∃ v, ((after calls).raiseRange lo hi orientation lane height).get?
          (.place n orientation lane) = some v ∧ Scalar.le height v = true) ∧
    ∀ floor lo hi lane epsilon, IsNumber floor →
      ((∀ v, (after calls).RecordedIn lo hi .rightOf lane v → lt v floor = true) →
        (after calls).clearSpan floor lo hi lane epsilon = floor) ∧
      (¬(∀ v, (after calls).RecordedIn lo hi .rightOf lane v → lt v floor = true) →
        ∃ top, Greatest ((after calls).RecordedIn lo hi .rightOf lane) (some top) ∧
          (after calls).clearSpan floor lo hi lane epsilon = top + epsilon) := by
  have hrecords := Records.after hcalls
  have hnumbers : ∀ k v, (after calls).get? k = some v → IsNumber v := fun _ _ => hrecords.isNumber
  refine ⟨hrecords, ?_, ?_, ?_⟩
  · intro c k hc
    rw [Call.get?_apply]
    refine ⟨fun hcovers => if_neg hcovers, ?_⟩
    intro v hv
    split
    · exact ⟨_, rfl, (both_le_raised hc (hnumbers k)).2 v hv⟩
    · exact ⟨v, hv, hnumbers k v hv⟩
  · intro lo hi orientation lane
    refine ⟨greatest_rangeMax hnumbers .., fun hlo hhi => tryRangeMax_eq_ok _ hlo hhi .., ?_⟩
    intro height n hheight hlo hhi
    rw [get?_raiseRange_span, if_pos ⟨n, hlo, hhi, rfl⟩]
    exact ⟨_, rfl, (both_le_raised hheight (hnumbers _)).1⟩
  · intro floor lo hi lane epsilon hfloor
    exact clearSpan_cases hnumbers hfloor lo hi lane epsilon

/-- The gap to the left of a needle is raised as the one to the right of its neighbour. -/
theorem recorded_after_two_calls :
    let calls : List (Call Float32) := [.place ⟨3, .rightOf, 0⟩ 1.5, .span 4 6 .leftOf 0 2.5]
    (∀ c ∈ calls, IsNumber c.height) ∧ Greatest (RaisedTo calls ⟨3, .rightOf, 0⟩) (some 2.5) ∧
      Greatest ((after calls).RecordedIn 0 5 .leftOf 0) (some 2.5) := by
  intro calls
  have hcalls : ∀ c ∈ calls, IsNumber c.height := by
    intro c hc
    simp only [calls, List.mem_cons, List.not_mem_nil, or_false] at hc
    rcases hc with rfl | rfl
    · show Scalar.le (1.5 : Float32) 1.5 = true
      decide
    · show Scalar.le (2.5 : Float32) 2.5 = true
      decide
  have hget : (after calls).get? ⟨3, .rightOf, 0⟩ = some 2.5 := by decide
  have hmax : (after calls).rangeMax 0 5 .leftOf 0 = some 2.5 := by decide
  obtain ⟨hhistory, -, hspan, -⟩ := recorded_of_history calls hcalls
  refine ⟨hcalls, ?_, ?_⟩
  · rw [← hget]
    exact hhistory _
  · rw [← hmax]
    exact (hspan 0 5 .leftOf 0).1

end HeightIndex

end Knitting
