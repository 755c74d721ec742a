import Knitting.Carrier.Table
import Mathlib.Data.List.Nodup

set_option autoImplicit false

/-! # What each operation leaves of the carriers

An operation on a group of carriers is seen through what it leaves at each name (`get?`) and of the
list of declared carriers. Those that neither bring in nor take out change the active carriers one
by one, each in its place (`Carriers.mapMembers`). -/

namespace Knitting.Carriers

variable {t t' : Carriers}

/-! ## Look-up -/

theorem name_of_get? {name : String} {c : Carrier} (h : t.get? name = some c) : c.name = name := by
  simpa using List.find?_some h

theorem isActive_iff {name : String} : t.isActive name = true ↔ ∃ c, t.get? name = some c :=
  Option.isSome_iff_exists

theorem isActive_eq_false_iff {name : String} : t.isActive name = false ↔ t.get? name = none :=
  Option.isSome_eq_false_iff.trans Option.isNone_iff_eq_none

/-! ## Changes of the active carriers -/

/-- The carriers with each active one changed in its place. -/
def mapMembers (t : Carriers) (f : Carrier → Carrier) : Carriers :=
  { t with members := t.members.map f }

@[simp] theorem declared_mapMembers (t : Carriers) (f : Carrier → Carrier) :
    (t.mapMembers f).declared = t.declared := rfl

@[simp] theorem fromHeader_mapMembers (t : Carriers) (f : Carrier → Carrier) :
    (t.mapMembers f).fromHeader = t.fromHeader := rfl

@[simp] theorem members_mapMembers (t : Carriers) (f : Carrier → Carrier) :
    (t.mapMembers f).members = t.members.map f := rfl

theorem mapMembers_mapMembers (t : Carriers) (f g : Carrier → Carrier) :
    (t.mapMembers f).mapMembers g = t.mapMembers fun c => g (f c) := by
  simp [mapMembers, Function.comp_def]

theorem mapMembers_id (t : Carriers) : (t.mapMembers fun c => c) = t := by
  simp [mapMembers]

section Map

variable {f : Carrier → Carrier} (hf : ∀ c, (f c).name = c.name)

include hf

theorem get?_mapMembers (t : Carriers) (name : String) :
    (t.mapMembers f).get? name = (t.get? name).map f := by
  have hsame : (fun c : Carrier => decide (c.name = name)) ∘ f =
      fun c => decide (c.name = name) := by
    funext c
    rw [Function.comp_apply, hf]
  rw [get?, mapMembers, List.find?_map, hsame, get?]

theorem isActive_mapMembers (t : Carriers) (name : String) :
    (t.mapMembers f).isActive name = t.isActive name := by
  simp [isActive, get?_mapMembers hf]

/-- Changing the carriers of a list of names, one name after the other, is changing each of them
once, if a second change of a carrier does no more. -/
theorem foldl_update_eq_mapMembers (htwice : ∀ c, f (f c) = f c) (names : List String)
    (t : Carriers) :
    names.foldl (fun t name => t.update name f) t =
      t.mapMembers fun c => if c.name ∈ names then f c else c := by
  induction names generalizing t with
  | nil => simp [mapMembers]
  | cons name names ih =>
    rw [List.foldl_cons, ih, update, ← mapMembers, mapMembers_mapMembers]
    congr 1
    funext c
    by_cases hname : c.name = name
    · simp [hname, hf, htwice]
    · simp [hname]

end Map

theorem park_eq_mapMembers (t : Carriers) (names : List String) (last : LastStitch) :
    t.park names last =
      t.mapMembers fun c => if c.name ∈ names then { c with last := some last } else c :=
  foldl_update_eq_mapMembers (f := fun c => { c with last := some last }) (fun _ => rfl)
    (fun _ => rfl) names t

/-! ## Taking carriers out -/

theorem get?_remove (t : Carriers) (name k : String) :
    (t.remove name).get? k = if k = name then none else t.get? k := by
  unfold get? remove
  rw [List.find?_filter]
  by_cases hk : k = name
  · subst hk
    simp
  · rw [if_neg hk]
    congr 1
    funext c
    by_cases hc : c.name = k
    · simp [hc, hk]
    · simp [hc]

theorem get?_removeAll (t : Carriers) (names : List String) (k : String) :
    (t.removeAll names).get? k = if k ∈ names then none else t.get? k := by
  unfold removeAll
  induction names generalizing t with
  | nil => simp
  | cons name names ih =>
    rw [List.foldl_cons, ih, get?_remove]
    by_cases hk : k = name
    · simp [hk]
    · simp [hk]

theorem removeAll_declared (t : Carriers) (names : List String) :
    (t.removeAll names).declared = t.declared ∧ (t.removeAll names).fromHeader = t.fromHeader := by
  unfold removeAll
  induction names generalizing t with
  | nil => exact ⟨rfl, rfl⟩
  | cons name names ih => exact ih (t.remove name)

/-! ## Declaring carriers -/

theorem mem_appendNew {names more : List String} {name : String} :
    name ∈ appendNew names more ↔ name ∈ names ∨ name ∈ more := by
  unfold appendNew
  induction more generalizing names with
  | nil => simp
  | cons new more ih =>
    rw [List.foldl_cons, ih, List.mem_cons]
    by_cases hnew : names.contains new = true
    · rw [if_pos hnew]
      rw [List.contains_iff_mem] at hnew
      grind
    · rw [if_neg hnew, List.mem_append, List.mem_singleton, or_assoc]

theorem nodup_appendNew {names more : List String} (h : names.Nodup) :
    (appendNew names more).Nodup := by
  refine List.foldlRecOn more _ (motive := List.Nodup) h ?_
  intro names hnames name _
  split
  · exact hnames
  · next hnew => exact List.concat_eq_append ▸ hnames.concat (by simpa using hnew)

/-- Names that are all new are put behind the others as they stand. -/
theorem appendNew_eq_append {names more : List String} (h : (names ++ more).Nodup) :
    appendNew names more = names ++ more := by
  induction more generalizing names with
  | nil => simp [appendNew]
  | cons new more ih =>
    have hnew : new ∉ names := fun hmem =>
      (List.nodup_append.1 h).2.2 new hmem new List.mem_cons_self rfl
    rw [appendNew, List.foldl_cons, ← appendNew, if_neg (by simpa using hnew),
      ih (by simpa using h)]
    simp

/-- Nothing is added if all is there. -/
theorem appendNew_eq_self {names more : List String} (h : more ⊆ names) :
    appendNew names more = names := by
  induction more with
  | nil => rfl
  | cons new more ih =>
    obtain ⟨hnew, hmore⟩ := List.cons_subset.1 h
    rw [appendNew, List.foldl_cons, if_pos (by simpa using hnew), ← appendNew, ih hmore]

theorem appendNew_appendNew (names more more' : List String) :
    appendNew (appendNew names more) more' = appendNew names (more ++ more') :=
  (List.foldl_append ..).symm

/-- The new names are put behind the others in the order in which they first come up. -/
theorem appendNew_eq_append_eraseDups (names more : List String) :
    appendNew names more = names ++ (more.filter (· ∉ names)).eraseDups := by
  induction more generalizing names with
  | nil => simp [appendNew]
  | cons new more ih =>
    rw [appendNew, List.foldl_cons, ← appendNew]
    by_cases hnew : new ∈ names
    · rw [if_pos (List.contains_iff_mem.2 hnew), ih, List.filter_cons_of_neg (by simpa using hnew)]
    · have hother : ∀ a, decide (a ∉ names ++ [new]) = ((!a == new) && decide (a ∉ names)) := by
        intro a
        by_cases ha : a = new <;> simp [ha]
      rw [if_neg (by simpa using hnew), ih, List.filter_cons_of_pos (by simpa using hnew),
        List.eraseDups_cons, List.filter_filter, List.append_assoc, List.singleton_append]
      simp only [hother]

theorem appendNew_nil (names : List String) : appendNew [] names = names.eraseDups := by
  simp [appendNew_eq_append_eraseDups]

/-- Carriers can be declared unless a header left them out. Those that were not declared yet are
put behind the others. -/
theorem declareAll_eq_ok_iff {names : List String} :
    t.declareAll names = .ok t' ↔
      (t.fromHeader = true → names ⊆ t.declared) ∧
        t' = { t with declared := appendNew t.declared names } := by
  induction names generalizing t with
  | nil =>
    simp only [declareAll, Except.ok.injEq, List.nil_subset, implies_true, true_and]
    exact eq_comm
  | cons name names ih =>
    unfold declareAll declare appendNew
    rw [List.foldl_cons]
    by_cases hname : t.declared.contains name = true
    · have hmem := List.contains_iff_mem.1 hname
      simp only [hname, if_true, ih, List.cons_subset, hmem, true_and]
      rfl
    · have hmem : name ∉ t.declared := fun h => hname (List.contains_iff_mem.2 h)
      rw [if_neg hname, if_neg hname]
      cases hheader : t.fromHeader with
      | true => simp [hmem]
      | false => simp [ih, appendNew]

/-! ## Bringing carriers in -/

theorem get?_put (t : Carriers) (c : Carrier) (k : String) :
    (t.put c).get? k = if k = c.name then some c else t.get? k := by
  unfold get? put
  induction t.members with
  | nil => simp [putMember, eq_comm]
  | cons d rest ih =>
    unfold putMember
    by_cases hd : d.name = c.name
    · rw [if_pos hd]
      by_cases hk : k = c.name
      · simp [hk]
      · have hne : c.name ≠ k := Ne.symm hk
        simp [hk, hd, hne]
    · rw [if_neg hd]
      by_cases hk : d.name = k
      · have hne : k ≠ c.name := fun h => hd (hk.trans h)
        simp [hk, hne]
      · simpa [hk] using ih

theorem foldl_put (names group : List String) (kind : InKind) (t : Carriers) :
    let t' := names.foldl (fun t name => t.put ⟨name, none, some ⟨kind, group⟩⟩) t
    (t'.declared = t.declared ∧ t'.fromHeader = t.fromHeader) ∧
      ∀ k, t'.get? k =
        if k ∈ names then some ⟨k, none, some ⟨kind, group⟩⟩ else t.get? k := by
  induction names generalizing t with
  | nil => simp
  | cons name names ih =>
    obtain ⟨hdeclared, hget⟩ := ih (t.put ⟨name, none, some ⟨kind, group⟩⟩)
    refine ⟨hdeclared, ?_⟩
    intro k
    rw [List.foldl_cons, hget, get?_put]
    by_cases hk : k = name
    · simp [hk]
    · simp [hk]

/-- A group can be brought in if none of it is active and no header left one of it out. -/
theorem exists_bringIn_eq_ok_iff {kind : InKind} {names : List String} :
    (∃ t', t.bringIn kind names = .ok t') ↔
      (∀ name ∈ names, t.isActive name = false) ∧
        (t.fromHeader = true → names ⊆ t.declared) := by
  unfold bringIn
  cases hfind : names.find? t.isActive with
  | some name =>
    have hactive := List.find?_some hfind
    simp only [reduceCtorEq, exists_false, false_iff, not_and]
    intro hnone
    simp [hnone name (List.mem_of_find?_eq_some hfind)] at hactive
  | none =>
    have hnone : ∀ name ∈ names, t.isActive name = false := by simpa using hfind
    rw [and_iff_right hnone]
    cases hdeclare : t.declareAll names with
    | error e =>
      simp only [reduceCtorEq, exists_false, false_iff]
      intro hsub
      have hok := declareAll_eq_ok_iff.2 ⟨hsub, rfl⟩
      simp [hok] at hdeclare
    | ok t₁ => simpa using (declareAll_eq_ok_iff.1 hdeclare).1

/-- A group that is brought in waits for its first stitch. -/
theorem bringIn_spec {kind : InKind} {names : List String} (h : t.bringIn kind names = .ok t') :
    t'.declared = appendNew t.declared names ∧ t'.fromHeader = t.fromHeader ∧
      ∀ k, t'.get? k = if k ∈ names then some ⟨k, none, some ⟨kind, names⟩⟩ else t.get? k := by
  unfold bringIn at h
  split at h
  · simp at h
  · split at h
    · simp at h
    · next t₁ hdeclare =>
      obtain rfl := Except.ok.inj h
      obtain ⟨-, rfl⟩ := declareAll_eq_ok_iff.1 hdeclare
      obtain ⟨⟨hdeclared, hheader⟩, hget⟩ := foldl_put names names kind
        { t with declared := appendNew t.declared names }
      exact ⟨hdeclared, hheader, hget⟩

/-! ## Names of active carriers -/

theorem names_mapMembers {f : Carrier → Carrier} (hf : ∀ c, (f c).name = c.name) (t : Carriers) :
    (t.mapMembers f).members.map (·.name) = t.members.map (·.name) := by
  simp [Function.comp_def, hf]

theorem names_update {f : Carrier → Carrier} (hf : ∀ c, (f c).name = c.name) (t : Carriers)
    (name : String) : (t.update name f).members.map (·.name) = t.members.map (·.name) := by
  have hname : ∀ c, (if c.name = name then f c else c).name = c.name := by
    intro c
    split
    · exact hf c
    · rfl
  exact names_mapMembers hname t

theorem names_park (t : Carriers) (group : List String) (last : LastStitch) :
    (t.park group last).members.map (·.name) = t.members.map (·.name) := by
  rw [park_eq_mapMembers]
  refine names_mapMembers ?_ t
  intro c
  split <;> rfl

theorem names_putMember (c : Carrier) (l : List Carrier) :
    (putMember c l).map (·.name) =
      if c.name ∈ l.map (·.name) then l.map (·.name) else l.map (·.name) ++ [c.name] := by
  induction l with
  | nil => rfl
  | cons d rest ih =>
    unfold putMember
    by_cases hd : d.name = c.name
    · simp [hd]
    · have hne : c.name ≠ d.name := Ne.symm hd
      simp only [if_neg hd, List.map_cons, ih, List.mem_cons, hne, false_or]
      split <;> rfl

theorem nodup_names_put (h : (t.members.map (·.name)).Nodup) (c : Carrier) :
    ((t.put c).members.map (·.name)).Nodup := by
  rw [put, names_putMember]
  split
  · exact h
  · next hnew => exact List.concat_eq_append ▸ h.concat hnew

theorem nodup_names_bringIn (h : (t.members.map (·.name)).Nodup) {kind : InKind}
    {group : List String} (hin : t.bringIn kind group = .ok t') :
    (t'.members.map (·.name)).Nodup := by
  unfold bringIn at hin
  split at hin
  · simp at hin
  · split at hin
    · simp at hin
    · next t₁ hdeclare =>
      obtain rfl := Except.ok.inj hin
      obtain ⟨-, rfl⟩ := declareAll_eq_ok_iff.1 hdeclare
      have hdeclared : (({ t with declared := appendNew t.declared group } : Carriers).members.map
          (·.name)).Nodup := h
      refine List.foldlRecOn group _
        (motive := fun t : Carriers => (t.members.map (·.name)).Nodup) hdeclared ?_
      intro t ht name _
      exact nodup_names_put ht _

theorem nodup_names_removeAll (h : (t.members.map (·.name)).Nodup) (group : List String) :
    ((t.removeAll group).members.map (·.name)).Nodup := by
  refine List.foldlRecOn group _
    (motive := fun t : Carriers => (t.members.map (·.name)).Nodup) h ?_
  intro t ht name _
  exact (List.filter_sublist.map _).nodup ht

end Knitting.Carriers
