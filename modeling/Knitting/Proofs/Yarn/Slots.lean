import Knitting.Proofs.Yarn.WellFormed
import Mathlib

set_option autoImplicit false

/-! # The slots of a store

A store keeps its loops by lane, row, bed and index. Seen flat it is one list of slots, each of them
the loops of a row at a needle (`YarnStore.slots`). No place comes twice in it
(`YarnStore.nodup_places`), and the loops of all slots are what `YarnStore.loopCount` counts. -/

namespace Knitting

variable {α : Type}

/-! ## Lists of lists -/

theorem sum_flatMap {β : Type} (l : List β) (f : β → List Nat) :
    (l.flatMap f).sum = (l.map fun a => (f a).sum).sum := by
  rw [List.flatMap_def, List.sum_flatten, List.map_map]
  rfl

/-- Pairs from lists that each come with a tag of their own are all different, if no list has an
element twice. -/
theorem nodup_flatMap_pair {β τ γ κ : Type} {l : List β} {tag : β → τ} {inner : β → List γ}
    {pair : τ → γ → κ} (htags : (l.map tag).Nodup) (hinner : ∀ a ∈ l, (inner a).Nodup)
    (hpair : ∀ t t' c c', pair t c = pair t' c' → t = t' ∧ c = c') :
    (l.flatMap fun a => (inner a).map (pair (tag a))).Nodup := by
  rw [List.nodup_flatMap]
  constructor
  · intro a ha
    refine (hinner a ha).map ?_
    intro c c' heq
    exact (hpair _ _ _ _ heq).2
  · refine (List.pairwise_map.1 htags).imp ?_
    intro a b hab k hk hk'
    obtain ⟨c, -, rfl⟩ := List.mem_map.1 hk
    obtain ⟨c', -, heq⟩ := List.mem_map.1 hk'
    exact hab (hpair _ _ _ _ heq).1.symm

/-- No key of a table has two entries. -/
theorem Table.nodup_keys {κ ν : Type} [Ord κ] [Std.LawfulEqOrd κ] (t : Table κ ν) :
    t.keys.Nodup := by
  refine List.pairwise_map.2 (t.ascending.imp ?_)
  intro a b hab heq
  simp [heq] at hab

/-! ## Rows -/

namespace Row

theorem mem_slots_iff {r : Row α} {n : Needle} {loops : List (Loop α)} :
    (n, loops) ∈ r.slots ↔ r.slot? n = some loops := by
  obtain ⟨bed, index⟩ := n
  simp only [slots, List.mem_flatMap, List.mem_map, Prod.exists, Prod.mk.injEq, Needle.mk.injEq,
    slot?, NeedleTable.at?, Option.bind_eq_some_iff, Table.get?_eq_some_iff]
  constructor
  · rintro ⟨bed', needles, hbed, index', loops', hindex, ⟨rfl, rfl⟩, rfl⟩
    exact ⟨needles, hbed, hindex⟩
  · rintro ⟨needles, hbed, hindex⟩
    exact ⟨bed, needles, hbed, index, loops, hindex, ⟨rfl, rfl⟩, rfl⟩

/-- No needle has two slots. -/
theorem nodup_needles (r : Row α) : (r.slots.map (·.1)).Nodup := by
  have hmap : r.slots.map (·.1) =
      r.beds.entries.flatMap fun e => e.2.keys.map (Needle.mk e.1) := by
    simp [slots, Table.keys, List.map_flatMap, Function.comp_def]
  have hbeds : (r.beds.entries.map Prod.fst).Nodup := r.beds.nodup_keys
  rw [hmap]
  refine nodup_flatMap_pair hbeds (fun e _ => e.2.nodup_keys) ?_
  intro b b' i i' heq
  exact Needle.mk.inj heq

theorem loopCount_eq_sum (r : Row α) : r.loopCount = (r.slots.map (·.2.length)).sum := by
  rw [loopCount, List.sum_eq_foldr, List.foldr_map]

end Row

/-! ## Paths -/

namespace YarnPath

/-- The slots of a path, row by row. -/
def slots (p : YarnPath α) : List ((Nat × Needle) × List (Loop α)) :=
  p.rows.zipIdx.flatMap fun (row, i) => row.slots.map fun (n, loops) => ((i, n), loops)

theorem mem_slots_iff {p : YarnPath α} {i : Nat} {n : Needle} {loops : List (Loop α)} :
    ((i, n), loops) ∈ p.slots ↔ (p.rows[i]?).bind (·.slot? n) = some loops := by
  simp only [slots, List.mem_flatMap, List.mem_map, Prod.exists, Prod.mk.injEq,
    List.mem_zipIdx_iff_getElem?, Option.bind_eq_some_iff]
  constructor
  · rintro ⟨row, i', hrow, n', loops', hslot, ⟨rfl, rfl⟩, rfl⟩
    exact ⟨row, hrow, Row.mem_slots_iff.1 hslot⟩
  · rintro ⟨row, hrow, hslot⟩
    exact ⟨row, i, hrow, n, loops, Row.mem_slots_iff.2 hslot, ⟨rfl, rfl⟩, rfl⟩

theorem nodup_places (p : YarnPath α) : (p.slots.map (·.1)).Nodup := by
  have hmap : p.slots.map (·.1) =
      p.rows.zipIdx.flatMap fun e => (e.1.slots.map (·.1)).map (Prod.mk e.2) := by
    simp [slots, List.map_flatMap, Function.comp_def]
  have hindices : (p.rows.zipIdx.map Prod.snd).Nodup := by
    rw [List.zipIdx_map_snd]
    exact List.nodup_range'
  rw [hmap]
  refine nodup_flatMap_pair hindices (fun e _ => e.1.nodup_needles) ?_
  intro i i' n n' heq
  exact Prod.mk.inj heq

theorem sum_length_slots (p : YarnPath α) :
    (p.slots.map (·.2.length)).sum = (p.rows.map Row.loopCount).sum := by
  have hrows : p.rows.map Row.loopCount = p.rows.zipIdx.map fun e => e.1.loopCount := by
    conv_lhs => rw [← List.zipIdx_map_fst 0 p.rows, List.map_map]
    rfl
  simp only [slots, List.map_flatMap, List.map_map, Function.comp_def, sum_flatMap, hrows,
    Row.loopCount_eq_sum]

end YarnPath

/-! ## Stores -/

namespace YarnStore

/-- The slots of a store, lane by lane. -/
def slots (s : YarnStore α) : List ((Nat × Nat × Needle) × List (Loop α)) :=
  s.paths.entries.flatMap fun (lane, p) => p.slots.map fun (place, loops) => ((lane, place), loops)

theorem mem_slots_iff {s : YarnStore α} {lane i : Nat} {n : Needle} {loops : List (Loop α)} :
    ((lane, i, n), loops) ∈ s.slots ↔ (s.row? lane i).bind (·.slot? n) = some loops := by
  have hpath : (s.row? lane i).bind (·.slot? n) =
      (s.path? lane).bind fun p => (p.rows[i]?).bind (·.slot? n) := by
    unfold row?
    cases s.path? lane <;> rfl
  rw [hpath]
  simp only [slots, List.mem_flatMap, List.mem_map, Prod.exists, Prod.mk.injEq, path?]
  rw [Option.bind_eq_some_iff]
  simp only [Table.get?_eq_some_iff, ← YarnPath.mem_slots_iff]
  constructor
  · rintro ⟨lane', p, hp, i', n', loops', hslot, ⟨rfl, rfl, rfl⟩, rfl⟩
    exact ⟨p, hp, hslot⟩
  · rintro ⟨p, hp, hslot⟩
    exact ⟨lane, p, hp, i, n, loops, hslot, ⟨rfl, rfl, rfl⟩, rfl⟩

/-- No row has two slots at a needle. -/
theorem nodup_places (s : YarnStore α) : (s.slots.map (·.1)).Nodup := by
  have hmap : s.slots.map (·.1) =
      s.paths.entries.flatMap fun e => (e.2.slots.map (·.1)).map (Prod.mk e.1) := by
    simp [slots, List.map_flatMap, Function.comp_def]
  have hlanes : (s.paths.entries.map Prod.fst).Nodup := s.paths.nodup_keys
  rw [hmap]
  refine nodup_flatMap_pair hlanes (fun e _ => e.2.nodup_places) ?_
  intro lane lane' place place' heq
  exact Prod.mk.inj heq

/-- What is counted are the loops of all slots. -/
theorem loopCount_eq_sum (s : YarnStore α) : s.loopCount = (s.slots.map (·.2.length)).sum := by
  have hcount : s.loopCount = ((s.paths.values.flatMap YarnPath.rows).map Row.loopCount).sum := by
    rw [loopCount, List.sum_eq_foldr, List.foldr_map]
  rw [hcount]
  simp only [slots, Table.values, List.map_flatMap, List.flatMap_map, List.map_map,
    Function.comp_def, sum_flatMap, YarnPath.sum_length_slots]

end YarnStore

end Knitting
