import Knitting.Proofs.Yarn.Slots
import Mathlib

set_option autoImplicit false

/-! # Lists and tables side by side

Where two things are kept in step, what is looked up in the one is related to what is looked up in
the other. Options are related by `Option.Rel`, lists by `List.Forall₂`. The entries of two tables
are related if their look-ups are, since their keys then come in the same order, or in reverse if
the keys of one are the negated keys of the other. -/

namespace Knitting

/-! ## Related lists -/

section Related

variable {β γ β' γ' : Type} {R : β → β' → Prop} {S : γ → γ' → Prop}

theorem rel_map {o : Option β} {o' : Option β'} (h : Option.Rel R o o') {f : β → γ} {f' : β' → γ'}
    (hf : ∀ a a', R a a' → S (f a) (f' a')) : Option.Rel S (o.map f) (o'.map f') := by
  cases h with
  | none => exact .none
  | some h => exact .some (hf _ _ h)

theorem rel_bind {o : Option β} {o' : Option β'} (h : Option.Rel R o o') {f : β → Option γ}
    {f' : β' → Option γ'} (hf : ∀ a a', R a a' → Option.Rel S (f a) (f' a')) :
    Option.Rel S (o.bind f) (o'.bind f') := by
  cases h with
  | none => exact .none
  | some h => exact hf _ _ h

theorem isSome_eq_of_rel {o : Option β} {o' : Option β'} (h : Option.Rel R o o') :
    o.isSome = o'.isSome := by
  cases h <;> rfl

theorem isEmpty_eq_of_forall₂ {l : List β} {l' : List β'} (h : List.Forall₂ R l l') :
    l.isEmpty = l'.isEmpty := by
  cases h <;> rfl

theorem forall₂_getD {o : Option (List β)} {o' : Option (List β')}
    (h : Option.Rel (List.Forall₂ R) o o') : List.Forall₂ R (o.getD []) (o'.getD []) := by
  cases h with
  | none => exact .nil
  | some h => exact h

theorem rel_getElem? {l : List β} {l' : List β'} (h : List.Forall₂ R l l') (i : Nat) :
    Option.Rel R l[i]? l'[i]? := by
  induction h generalizing i with
  | nil => exact .none
  | cons hab _ ih =>
    cases i with
    | zero => exact .some hab
    | succ i => exact ih i

theorem rel_getLast? {l : List β} {l' : List β'} (h : List.Forall₂ R l l') :
    Option.Rel R l.getLast? l'.getLast? := by
  rw [List.getLast?_eq_getElem?, List.getLast?_eq_getElem?, h.length_eq]
  exact rel_getElem? h _

theorem forall₂_mapIdx {l : List β} {l' : List β'} (h : List.Forall₂ R l l') {f : Nat → β → γ}
    {f' : Nat → β' → γ'} (hf : ∀ i a a', R a a' → S (f i a) (f' i a')) :
    List.Forall₂ S (l.mapIdx f) (l'.mapIdx f') := by
  induction h generalizing f f' with
  | nil => exact .nil
  | cons hab _ ih =>
    rw [List.mapIdx_cons, List.mapIdx_cons]
    exact .cons (hf 0 _ _ hab) (ih fun i => hf (i + 1))

theorem forall₂_modify {l : List β} {l' : List β'} (h : List.Forall₂ R l l') (i : Nat) {f : β → β}
    {f' : β' → β'} (hf : ∀ a a', R a a' → R (f a) (f' a')) :
    List.Forall₂ R (l.modify i f) (l'.modify i f') := by
  induction h generalizing i with
  | nil => cases i <;> exact .nil
  | cons hab hrest ih =>
    cases i with
    | zero => exact .cons (hf _ _ hab) hrest
    | succ i => exact .cons hab (ih i)

theorem forall₂_zip {l : List β} {l' : List β'} (h : List.Forall₂ R l l') {m : List γ}
    {m' : List γ'} (hm : List.Forall₂ S m m') :
    List.Forall₂ (fun p p' => R p.1 p'.1 ∧ S p.2 p'.2) (l.zip m) (l'.zip m') := by
  induction h generalizing m m' with
  | nil => exact .nil
  | cons hab _ ih =>
    cases hm with
    | nil => exact .nil
    | cons hcd hm => exact .cons ⟨hab, hcd⟩ (ih hm)

/-- Entries are related if the keys of one list are those of the other under a function, and what is
found at them is related. -/
theorem forall₂_of_keys {κ κ' : Type} {f : κ → κ'} {l : List (κ × β)} {l' : List (κ' × β')}
    (hkeys : l'.map Prod.fst = (l.map Prod.fst).map f)
    (h : ∀ k a a', (k, a) ∈ l → (f k, a') ∈ l' → R a a') :
    List.Forall₂ (fun e e' => e'.1 = f e.1 ∧ R e.2 e'.2) l l' := by
  induction l generalizing l' with
  | nil =>
    obtain rfl := List.map_eq_nil_iff.1 hkeys
    exact .nil
  | cons e l ih =>
    cases l' with
    | nil => simp at hkeys
    | cons e' l' =>
      obtain ⟨hkey, hkeys⟩ := List.cons.inj hkeys
      refine .cons ⟨hkey, h e.1 e.2 e'.2 List.mem_cons_self ?_⟩ (ih hkeys ?_)
      · rw [← hkey]
        exact List.mem_cons_self
      · intro k a a' ha ha'
        exact h k a a' (List.mem_cons_of_mem _ ha) (List.mem_cons_of_mem _ ha')

end Related

namespace Table

variable {κ ν ν' : Type} [Ord κ] [Std.LawfulEqOrd κ]

theorem mem_keys_iff {t : Table κ ν} {k : κ} : k ∈ t.keys ↔ (t.get? k).isSome = true := by
  simp only [keys, List.mem_map, Prod.exists, exists_and_right, exists_eq_right,
    Option.isSome_iff_exists, get?_eq_some_iff]

variable [Std.TransOrd κ]

/-- Ascending keys are the keys of a table if they are those that it has. -/
theorem keys_eq (t : Table κ ν) {ks : List κ} (hks : ks.Pairwise fun k l => compare k l = .lt)
    (h : ∀ k, k ∈ ks ↔ (t.get? k).isSome = true) : t.keys = ks := by
  have hnodup : ks.Nodup := by
    refine hks.imp ?_
    rintro k l hkl rfl
    simp at hkl
  have hperm : t.keys.Perm ks := by
    refine (List.perm_ext_iff_of_nodup t.nodup_keys hnodup).2 ?_
    intro k
    rw [mem_keys_iff, h]
  refine hperm.eq_of_pairwise ?_ (List.pairwise_map.2 t.ascending) hks
  intro k l _ _ hkl hlk
  have hkk := Std.TransCmp.lt_trans hkl hlk
  simp at hkk

/-- The entries of tables with related look-ups are related. -/
theorem forall₂_entries {R : ν → ν' → Prop} {t : Table κ ν} {t' : Table κ ν'}
    (h : ∀ k, Option.Rel R (t.get? k) (t'.get? k)) :
    List.Forall₂ (fun e e' => e'.1 = e.1 ∧ R e.2 e'.2) t.entries t'.entries := by
  have hkeys : t'.keys = t.keys := by
    refine t'.keys_eq (List.pairwise_map.2 t.ascending) ?_
    intro k
    rw [mem_keys_iff, isSome_eq_of_rel (h k)]
  refine forall₂_of_keys (f := id) (hkeys.trans (List.map_id _).symm) ?_
  intro k v v' hv hv'
  have hv' : (k, v') ∈ t'.entries := hv'
  have hrel := h k
  rw [get?_eq_some_iff.2 hv, get?_eq_some_iff.2 hv'] at hrel
  cases hrel with
  | some hrel => exact hrel

/-- The keys of a table with negated keys come the other way round. -/
theorem keys_neg {t t' : Table Int ν} (h : ∀ k, (t'.get? (-k)).isSome = (t.get? k).isSome) :
    t'.keys = (t.keys.map Neg.neg).reverse := by
  refine t'.keys_eq ?_ ?_
  · refine List.pairwise_reverse.2 (List.pairwise_map.2 (List.pairwise_map.2 (t.ascending.imp ?_)))
    intro a b hab
    rw [Int.compare_eq_lt] at hab ⊢
    exact Int.neg_lt_neg hab
  · intro k
    have hk := h (-k)
    rw [Int.neg_neg] at hk
    rw [hk, ← mem_keys_iff, List.mem_reverse, List.mem_map]
    constructor
    · rintro ⟨l, hl, rfl⟩
      rwa [Int.neg_neg]
    · intro hl
      exact ⟨-k, hl, Int.neg_neg k⟩

end Table

end Knitting
