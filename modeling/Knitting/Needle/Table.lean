import Knitting.Needle.Basic
import Knitting.Table

set_option autoImplicit false

/-! # Tables by needle

What is kept for needles is kept bed by bed: a table of beds, and for each bed a table of indices.
`at?` is the view of the two together; `put` and `remove` are said through it (`at?_put`,
`at?_remove`), and neither leaves a bed without an entry (`Pruned`). -/

namespace Knitting

/-- A finite map from needles, bed by bed. -/
abbrev NeedleTable (ν : Type) : Type := Table Bed (Table Int ν)

namespace NeedleTable

variable {ν : Type}

def at? (t : NeedleTable ν) (n : Needle) : Option ν :=
  (t.get? n.bed).bind fun needles => needles.get? n.index

def put (t : NeedleTable ν) (n : Needle) (v : ν) : NeedleTable ν :=
  t.alter n.bed .empty fun needles => needles.insert n.index v

/-- The table without an entry at a needle, and without the needle's bed if that was the last entry
of it. -/
def remove (t : NeedleTable ν) (n : Needle) : NeedleTable ν :=
  match t.get? n.bed with
  | none => t
  | some needles =>
    let rest := needles.erase n.index
    if rest.isEmpty then t.erase n.bed else t.insert n.bed rest

/-- The indices of the entries on a bed, in ascending order. -/
def indices (t : NeedleTable ν) (b : Bed) : List Int := ((t.get? b).map Table.keys).getD []

/-! ## The view -/

@[simp] theorem at?_empty (n : Needle) : at? (.empty : NeedleTable ν) n = none := rfl

/-- `put` changes the value at its needle and at no other. -/
theorem at?_put (t : NeedleTable ν) (n m : Needle) (v : ν) :
    (t.put n v).at? m = if m = n then some v else t.at? m := by
  obtain ⟨b, i⟩ := n
  obtain ⟨c, j⟩ := m
  simp only [at?, put, Table.get?_alter, Needle.mk.injEq]
  by_cases hb : c = b
  · subst hb
    by_cases hi : j = i
    · simp [hi]
    · cases h : t.get? c <;> simp [hi, Table.get?_insert]
  · simp [hb]

/-- `remove` empties its needle and no other. -/
theorem at?_remove (t : NeedleTable ν) (n m : Needle) :
    (t.remove n).at? m = if m = n then none else t.at? m := by
  obtain ⟨b, i⟩ := n
  obtain ⟨c, j⟩ := m
  simp only [at?, remove, Needle.mk.injEq]
  cases h : t.get? b with
  | none =>
    by_cases hb : c = b
    · subst hb
      simp [h]
    · simp [hb]
  | some needles =>
    by_cases hb : c = b
    · subst hb
      by_cases hrest : (needles.erase i).isEmpty
      · have hnone : (needles.erase i).get? j = none :=
          Table.get?_of_isEmpty hrest j
        rw [Table.get?_erase] at hnone
        simp only [hrest, if_true, Table.get?_erase, Option.bind_none, true_and, h,
          Option.bind_some]
        split <;> simp_all
      · simp [hrest, h, Table.get?_erase]
    · by_cases hrest : (needles.erase i).isEmpty
      · simp [hrest, hb, Table.get?_erase]
      · simp [hrest, hb, Table.get?_insert]

/-! ## Beds without entries -/

/-- No bed of a table is without entries. -/
def Pruned (t : NeedleTable ν) : Prop :=
  ∀ b needles, t.get? b = some needles → needles.isEmpty = false

theorem pruned_empty : Pruned (.empty : NeedleTable ν) := by
  intro b needles h
  simp at h

theorem pruned_put {t : NeedleTable ν} (h : t.Pruned) (n : Needle) (v : ν) :
    (t.put n v).Pruned := by
  intro b needles hb
  rw [put, Table.get?_alter] at hb
  split at hb
  · obtain rfl := Option.some.inj hb
    exact Table.isEmpty_insert _ _ _
  · exact h b needles hb

theorem pruned_remove {t : NeedleTable ν} (h : t.Pruned) (n : Needle) : (t.remove n).Pruned := by
  intro b needles hb
  cases hn : t.get? n.bed with
  | none =>
    simp only [remove, hn] at hb
    exact h b needles hb
  | some old =>
    simp only [remove, hn] at hb
    by_cases hrest : (old.erase n.index).isEmpty
    · rw [if_pos hrest, Table.get?_erase] at hb
      split at hb
      · simp at hb
      · exact h b needles hb
    · rw [if_neg hrest, Table.get?_insert] at hb
      split at hb
      · obtain rfl := Option.some.inj hb
        simpa using hrest
      · exact h b needles hb

/-- A bed is missing from a table without empty beds just if none of its needles has an entry. -/
theorem Pruned.get?_eq_none_iff {t : NeedleTable ν} (h : t.Pruned) (b : Bed) :
    t.get? b = none ↔ ∀ i, t.at? ⟨b, i⟩ = none := by
  constructor
  · intro hb i
    simp [at?, hb]
  · intro hnone
    cases hb : t.get? b with
    | none => rfl
    | some needles =>
      have hne : needles.entries ≠ [] := by simpa [Table.isEmpty] using h b needles hb
      obtain ⟨⟨i, v⟩, hentry⟩ := List.exists_mem_of_ne_nil _ hne
      have hi := hnone i
      simp [at?, hb, Table.get?_eq_some_iff.2 hentry] at hi

/-- Tables without empty beds are equal if they have the same at each needle. -/
theorem ext_at? {s t : NeedleTable ν} (hs : s.Pruned) (ht : t.Pruned)
    (h : ∀ n, s.at? n = t.at? n) : s = t := by
  refine Table.ext_get? ?_
  intro b
  have hnone : s.get? b = none ↔ t.get? b = none := by
    rw [hs.get?_eq_none_iff, ht.get?_eq_none_iff]
    simp only [h]
  cases hsb : s.get? b with
  | none => rw [hnone.1 hsb]
  | some needles =>
    cases htb : t.get? b with
    | none => simp [hnone.2 htb] at hsb
    | some others =>
      refine congrArg some (Table.ext_get? ?_)
      intro i
      simpa [at?, hsb, htb] using h ⟨b, i⟩

end NeedleTable

end Knitting
