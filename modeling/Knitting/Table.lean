set_option autoImplicit false

/-! # Ordered tables

A finite map kept as a list of entries whose keys strictly ascend, so that the order in which a
table is walked is the order of its keys and two tables with the same look-ups are equal
(`Table.ext_get?`). Everything else is said through the view `get?`: what `insert` and `erase`
do to it is `get?_insert` and `get?_erase`. -/

namespace Knitting

/-- A finite map with strictly ascending keys. -/
structure Table (κ ν : Type) [Ord κ] where
  entries : List (κ × ν)
  /-- Each key is below every later one. -/
  ascending : entries.Pairwise fun a b => compare a.1 b.1 = .lt

namespace Table

variable {κ ν : Type} [Ord κ]

/-! ## Look-up -/

def empty : Table κ ν := ⟨[], .nil⟩

instance : Inhabited (Table κ ν) := ⟨empty⟩

def lookup (k : κ) : List (κ × ν) → Option ν
  | [] => none
  | (k', v) :: rest => if compare k k' = .eq then some v else lookup k rest

def get? (t : Table κ ν) (k : κ) : Option ν := lookup k t.entries

def contains (t : Table κ ν) (k : κ) : Bool := (t.get? k).isSome

def size (t : Table κ ν) : Nat := t.entries.length

def isEmpty (t : Table κ ν) : Bool := t.entries.isEmpty

/-- The keys in ascending order. -/
def keys (t : Table κ ν) : List κ := t.entries.map (·.1)

/-- The values in ascending order of their keys. -/
def values (t : Table κ ν) : List ν := t.entries.map (·.2)

@[simp] theorem get?_empty (k : κ) : (empty : Table κ ν).get? k = none := rfl

theorem get?_of_isEmpty {t : Table κ ν} (h : t.isEmpty = true) (k : κ) : t.get? k = none := by
  rw [get?, List.isEmpty_iff.1 h, lookup]

/-! ## Writing -/

/-- Puts an entry in its place, over an entry with the same key. -/
def insertEntry (k : κ) (v : ν) : List (κ × ν) → List (κ × ν)
  | [] => [(k, v)]
  | (k', v') :: rest =>
    match compare k k' with
    | .lt => (k, v) :: (k', v') :: rest
    | .eq => (k, v) :: rest
    | .gt => (k', v') :: insertEntry k v rest

theorem mem_insertEntry {k : κ} {v : ν} {a : κ × ν} :
    ∀ {l : List (κ × ν)}, a ∈ insertEntry k v l → a = (k, v) ∨ a ∈ l
  | [], h => by simpa [insertEntry] using h
  | (k', v') :: rest, h => by
    have ih : a ∈ insertEntry k v rest → a = (k, v) ∨ a ∈ rest := mem_insertEntry
    unfold insertEntry at h
    split at h <;> grind

def erase (t : Table κ ν) (k : κ) : Table κ ν :=
  ⟨t.entries.filter fun e => compare k e.1 != .eq, t.ascending.filter _⟩

/-! ## Entries and look-up -/

variable [Std.LawfulEqOrd κ]

theorem lookup_eq_some_iff {k : κ} {v : ν} {l : List (κ × ν)}
    (h : l.Pairwise fun a b => compare a.1 b.1 = .lt) :
    lookup k l = some v ↔ (k, v) ∈ l := by
  induction l with
  | nil => simp [lookup]
  | cons hd tl ih =>
    obtain ⟨k', v'⟩ := hd
    obtain ⟨above, rest⟩ := List.pairwise_cons.1 h
    simp only [lookup, Std.compare_eq_iff_eq, List.mem_cons, Prod.mk.injEq]
    by_cases hk : k = k'
    · subst hk
      have : (k, v) ∉ tl := fun hv => by simpa using above _ hv
      simp [this, eq_comm]
    · simp [hk, ih rest]

/-- A value is found at a key exactly when the two are an entry. -/
theorem get?_eq_some_iff {t : Table κ ν} {k : κ} {v : ν} :
    t.get? k = some v ↔ (k, v) ∈ t.entries :=
  lookup_eq_some_iff t.ascending

section Lookup

variable [DecidableEq κ]

theorem lookup_insertEntry (k k' : κ) (v : ν) (l : List (κ × ν)) :
    lookup k' (insertEntry k v l) = if k' = k then some v else lookup k' l := by
  induction l with
  | nil => simp [insertEntry, lookup]
  | cons hd tl ih =>
    obtain ⟨k'', v''⟩ := hd
    unfold insertEntry
    split
    · simp [lookup]
    · next same =>
      obtain rfl := Std.LawfulEqOrd.eq_of_compare same
      simp only [lookup, Std.compare_eq_iff_eq]
      split <;> rfl
    · next beyond =>
      simp only [lookup, ih, Std.compare_eq_iff_eq]
      by_cases h : k' = k''
      · subst h
        have : k' ≠ k := by
          rintro rfl
          simp at beyond
        simp [this]
      · simp [h]

theorem lookup_filter (k k' : κ) (l : List (κ × ν)) :
    lookup k' (l.filter fun e => compare k e.1 != .eq)
      = if k' = k then none else lookup k' l := by
  induction l with
  | nil => simp [lookup]
  | cons hd tl ih =>
    obtain ⟨k'', v''⟩ := hd
    by_cases h : k = k''
    · subst h
      simp only [List.filter_cons, Std.ReflOrd.compare_self, bne_self_eq_false,
        Bool.false_eq_true, if_false, ih, lookup, Std.compare_eq_iff_eq]
      split <;> simp_all
    · have : compare k k'' ≠ .eq := fun e => h (Std.LawfulEqOrd.eq_of_compare e)
      simp only [List.filter_cons, bne_iff_ne, ne_eq, this, not_false_eq_true, if_true, lookup,
        ih, Std.compare_eq_iff_eq]
      by_cases h' : k' = k''
      · subst h'
        simp [Ne.symm h]
      · simp [h']

/-- Erasure empties its key and no other. -/
theorem get?_erase (t : Table κ ν) (k k' : κ) :
    (t.erase k).get? k' = if k' = k then none else t.get? k' :=
  lookup_filter k k' t.entries

end Lookup

/-! ## Insertion and its view -/

variable [Std.TransOrd κ]

theorem ascending_insertEntry {k : κ} {v : ν} {l : List (κ × ν)}
    (h : l.Pairwise fun a b => compare a.1 b.1 = .lt) :
    (insertEntry k v l).Pairwise fun a b => compare a.1 b.1 = .lt := by
  induction l with
  | nil => simp [insertEntry]
  | cons hd tl ih =>
    obtain ⟨k', v'⟩ := hd
    obtain ⟨above, rest⟩ := List.pairwise_cons.1 h
    unfold insertEntry
    split
    · next below =>
      refine List.pairwise_cons.2 ⟨?_, h⟩
      intro a ha
      rcases List.mem_cons.1 ha with rfl | ha
      · exact below
      · exact Std.TransCmp.lt_trans below (above a ha)
    · next same =>
      obtain rfl := Std.LawfulEqOrd.eq_of_compare same
      exact List.pairwise_cons.2 ⟨above, rest⟩
    · next beyond =>
      refine List.pairwise_cons.2 ⟨?_, ih rest⟩
      intro a ha
      rcases mem_insertEntry ha with rfl | ha
      · exact Std.OrientedCmp.lt_of_gt beyond
      · exact above a ha

def insert (t : Table κ ν) (k : κ) (v : ν) : Table κ ν :=
  ⟨insertEntry k v t.entries, ascending_insertEntry t.ascending⟩

theorem isEmpty_insert (t : Table κ ν) (k : κ) (v : ν) : (t.insert k v).isEmpty = false := by
  obtain ⟨l, _⟩ := t
  cases l with
  | nil => rfl
  | cons e rest =>
    simp only [insert, isEmpty, insertEntry]
    split <;> rfl

/-- The table with the value at `k`, or `d` where there is none, changed by `f`. -/
def alter (t : Table κ ν) (k : κ) (d : ν) (f : ν → ν) : Table κ ν :=
  t.insert k (f ((t.get? k).getD d))

/-- The table of a list of entries; of two entries with one key the later counts. -/
def ofList (l : List (κ × ν)) : Table κ ν :=
  l.foldl (fun t e => t.insert e.1 e.2) empty

/-- Tables with the same look-ups are equal. -/
theorem ext_get? {s t : Table κ ν} (h : ∀ k, s.get? k = t.get? k) : s = t := by
  have same : ∀ a, a ∈ s.entries ↔ a ∈ t.entries := fun ⟨k, v⟩ => by
    rw [← get?_eq_some_iff, ← get?_eq_some_iff, h]
  have nodup : ∀ u : Table κ ν, u.entries.Nodup := fun u =>
    u.ascending.imp fun {a b} hab e => by simp [e] at hab
  have perm : s.entries.Perm t.entries :=
    (List.perm_ext_iff_of_nodup (nodup s) (nodup t)).2 same
  have : s.entries = t.entries :=
    perm.eq_of_pairwise (fun a b _ _ hab hba => by
      have := Std.TransCmp.lt_trans hab hba
      simp at this) s.ascending t.ascending
  cases s
  cases t
  simp_all

section Lookup

variable [DecidableEq κ]

/-- Insertion changes the look-up at its key and at no other. -/
theorem get?_insert (t : Table κ ν) (k k' : κ) (v : ν) :
    (t.insert k v).get? k' = if k' = k then some v else t.get? k' :=
  lookup_insertEntry k k' v t.entries

@[simp] theorem get?_insert_self (t : Table κ ν) (k : κ) (v : ν) :
    (t.insert k v).get? k = some v := by
  simp [get?_insert]

theorem get?_insert_of_ne (t : Table κ ν) {k k' : κ} (v : ν) (h : k' ≠ k) :
    (t.insert k v).get? k' = t.get? k' := by
  simp [get?_insert, h]

/-- What `alter` leaves at its key, and that it touches no other. -/
theorem get?_alter (t : Table κ ν) (k k' : κ) (d : ν) (f : ν → ν) :
    (t.alter k d f).get? k' = if k' = k then some (f ((t.get? k).getD d)) else t.get? k' :=
  get?_insert t k k' _

end Lookup

end Table

end Knitting
