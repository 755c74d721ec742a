import Knitting.Proofs.Mirror.Yarn
import Knitting.Proofs.Yarn.Slots

set_option autoImplicit false

/-! # What the stream of records holds

A store is nested: lanes have rows, rows have needles, needles have loops and loops have points. The
stream of its records flattens that. Each level enumerates what it holds, once for each place and in
an order of the places (`Enumerates`), and what is enumerated inside of places that are enumerated
comes in the order of both (`Enumerates.flatMap`). So the stream has each point of each loop once
and starts the yarn of each lane that has a loop, and nothing else is in it
(`YarnStore.enumerates_records`). -/

namespace Knitting

/-! ## Lists in the order of places -/

/-- A list has what there is at each place, once for each place and in an order of them. -/
def Enumerates {π ρ : Type} (Before : π → π → Prop) (Holds : π → ρ → Prop) (l : List ρ) : Prop :=
  ∃ placed : List (π × ρ), placed.map Prod.snd = l ∧
    (placed.map Prod.fst).Pairwise Before ∧ ∀ place r, (place, r) ∈ placed ↔ Holds place r

section Enumerates

variable {π κ σ ρ : Type} {Before : π → π → Prop} {Holds : π → σ → Prop} {l : List σ}

/-- What is enumerated inside of what is enumerated comes in the order of the outer places and then
of the inner ones. -/
theorem Enumerates.flatMap (h : Enumerates Before Holds l) {Within : σ → κ → κ → Prop}
    {Inside : σ → κ → ρ → Prop} {inner : σ → List ρ}
    (hinner : ∀ a, Enumerates (Within a) (Inside a) (inner a)) :
    Enumerates (fun p q : π × κ => Before p.1 q.1 ∨ p.1 = q.1 ∧ ∃ a, Holds p.1 a ∧ Within a p.2 q.2)
      (fun p r => ∃ a, Holds p.1 a ∧ Inside a p.2 r) (l.flatMap inner) := by
  obtain ⟨placed, rfl, horder, hmem⟩ := h
  choose sub hsub hwithin hinside using hinner
  refine ⟨placed.flatMap fun e => (sub e.2).map fun f => ((e.1, f.1), f.2), ?_, ?_, ?_⟩
  · simp [List.map_flatMap, List.flatMap_map, Function.comp_def, ← hsub]
  · simp only [List.map_flatMap, List.map_map, Function.comp_def, List.pairwise_flatMap]
    constructor
    · intro e he
      refine List.pairwise_map.2 ((List.pairwise_map.1 (hwithin e.2)).imp ?_)
      exact fun hk => .inr ⟨rfl, e.2, (hmem _ _).1 he, hk⟩
    · refine (List.pairwise_map.1 horder).imp ?_
      intro e e' hbefore p hp q hq
      obtain ⟨f, -, rfl⟩ := List.mem_map.1 hp
      obtain ⟨f', -, rfl⟩ := List.mem_map.1 hq
      exact .inl hbefore
  · rintro ⟨p, k⟩ r
    simp only [List.mem_flatMap, List.mem_map, Prod.exists, Prod.mk.injEq]
    constructor
    · rintro ⟨_, a, ha, _, _, hr, ⟨rfl, rfl⟩, rfl⟩
      exact ⟨a, (hmem _ _).1 ha, (hinside a _ _).1 hr⟩
    · rintro ⟨a, ha, hr⟩
      exact ⟨p, a, (hmem _ _).2 ha, k, r, (hinside a _ _).2 hr, ⟨rfl, rfl⟩, rfl⟩

/-- The same list by other names of the places. -/
theorem Enumerates.rename (h : Enumerates Before Holds l) {Before' : κ → κ → Prop}
    {Holds' : κ → σ → Prop} (name : π → κ) (hbefore : ∀ p q, Before p q → Before' (name p) (name q))
    (hholds : ∀ k a, Holds' k a ↔ ∃ p, name p = k ∧ Holds p a) : Enumerates Before' Holds' l := by
  obtain ⟨placed, rfl, horder, hmem⟩ := h
  refine ⟨placed.map fun e => (name e.1, e.2), ?_, ?_, ?_⟩
  · simp [Function.comp_def]
  · rw [List.map_map]
    exact List.pairwise_map.2 ((List.pairwise_map.1 horder).imp fun hpq => hbefore _ _ hpq)
  · intro k a
    simp only [List.mem_map, Prod.exists, Prod.mk.injEq, hholds, hmem]
    constructor
    · rintro ⟨p, _, ha, rfl, rfl⟩
      exact ⟨p, rfl, ha⟩
    · rintro ⟨p, rfl, ha⟩
      exact ⟨p, a, ha, rfl, rfl⟩

/-- What is made of the elements of a list and their numbers is enumerated by number. -/
theorem enumerates_zipIdx (l : List σ) (f : σ × Nat → ρ) :
    Enumerates (· < ·) (fun i r => ∃ a, l[i]? = some a ∧ f (a, i) = r) (l.zipIdx.map f) := by
  refine ⟨l.zipIdx.map fun e => (e.2, f e), ?_, ?_, ?_⟩
  · simp [Function.comp_def]
  · simp only [List.map_map, Function.comp_def, List.zipIdx_map_snd]
    exact List.pairwise_lt_range'
  · intro i r
    simp [List.mem_zipIdx_iff_getElem?]

theorem enumerates_getElem? (l : List σ) :
    Enumerates (· < ·) (fun (i : Nat) (a : σ) => l[i]? = some a) l := by
  simpa [List.zipIdx_map_fst] using enumerates_zipIdx l Prod.fst

/-- The order of a heading and what comes under it. -/
def Headed (Before : π → π → Prop) : Option π → Option π → Prop
  | none, some _ => True
  | some p, some q => Before p q
  | _, none => False

/-- A list under a heading that stands only where there is something to head. -/
theorem Enumerates.headed (h : Enumerates Before Holds l) (heading : σ) {bare : Prop}
    [Decidable bare] (hbare : bare → l = []) :
    Enumerates (Headed Before) (fun k a => k.elim (¬bare ∧ heading = a) (Holds · a))
      (if bare then [] else heading :: l) := by
  obtain ⟨placed, rfl, horder, hmem⟩ := h
  refine ⟨(if bare then [] else [(none, heading)]) ++ placed.map fun e => (some e.1, e.2),
    ?_, ?_, ?_⟩
  · split
    · next hc => simp [Function.comp_def, hbare hc]
    · simp [Function.comp_def]
  · simp only [List.map_append, List.map_map, Function.comp_def, List.pairwise_append]
    refine ⟨by split <;> simp, ?_, ?_⟩
    · exact List.pairwise_map.2 ((List.pairwise_map.1 horder).imp id)
    · intro k hk k' hk'
      obtain ⟨e, -, rfl⟩ := List.mem_map.1 hk'
      split at hk
      · simp at hk
      · obtain rfl : k = none := by simpa using hk
        trivial
  · rintro (_ | p) a
    · by_cases hc : bare <;> simp [hc, eq_comm]
    · by_cases hc : bare <;> simp [hc, hmem]

end Enumerates

/-! ## Loops -/

variable {α : Type}

theorem Loop.enumerates_records (l : Loop α) : Enumerates (· < ·) (fun i record => ∃ position,
      l.points[i]? = some position ∧ .point position (decide (corridorStart ≤ i)) = record)
    l.records :=
  enumerates_zipIdx l.points _

/-! ## Rows -/

namespace Row

/-- A sweep in a direction comes to a needle before it comes to another one. To the left the indices
descend and else they ascend. At one index it goes from the front to the back. -/
def Sooner (direction : Direction) (n m : Needle) : Prop :=
  (if direction = .left then m.index < n.index else n.index < m.index) ∨
    n.index = m.index ∧ n.bed.rank < m.bed.rank

theorem sooner_of_noLater {direction : Direction} {n m : Needle}
    (h : noLater direction n m = true) (hne : n ≠ m) : Sooner direction n m := by
  rw [noLater_iff, progress_inj] at h
  refine h.imp ?_ ?_
  · unfold progress
    split
    · exact Int.lt_of_neg_lt_neg
    · exact id
  · rintro ⟨hindex, hbed⟩
    refine ⟨hindex, Nat.lt_of_le_of_ne hbed ?_⟩
    intro hrank
    cases n
    cases m
    exact hne (Needle.mk.injEq .. ▸ ⟨Bed.rank_injective hrank, hindex⟩)

/-- No two slots of a row are at one needle, and the sweep comes to them one after the other. -/
theorem pairwise_sooner (r : Row α) : (r.traversal.map Prod.fst).Pairwise (Sooner r.direction) :=
  r.pairwise_traversal.imp₂ (fun _ _ => sooner_of_noLater) r.nodup_traversal

theorem enumerates_slots (r : Row α) :
    Enumerates (Sooner r.direction) (fun n loops => r.slot? n = some loops)
      (r.traversal.map Prod.snd) :=
  ⟨r.traversal, rfl, r.pairwise_sooner, fun _ _ => mem_traversal_iff⟩

/-- The loops of a row come by needle and then by number. -/
theorem enumerates_loops (r : Row α) :
    Enumerates (fun p q : Needle × Nat => Sooner r.direction p.1 q.1 ∨ p.1 = q.1 ∧ p.2 < q.2)
      (fun p l => ∃ loops, r.slot? p.1 = some loops ∧ loops[p.2]? = some l) r.loops := by
  have h := r.enumerates_slots.flatMap enumerates_getElem?
  rw [List.flatMap_map] at h
  refine h.rename id ?_ (by simp)
  rintro p q (hneedle | ⟨hneedle, -, -, hnumber⟩)
  · exact .inl hneedle
  · exact .inr ⟨hneedle, hnumber⟩

end Row

/-! ## Paths -/

/-- Where a point of a path is: in a row at a needle, in one of the loops there. -/
structure PointPlace where
  row : Nat
  needle : Needle
  loop : Nat
  point : Nat

namespace YarnPath

def point? (p : YarnPath α) (place : PointPlace) : Option (Point α) := do
  (← (← (← p.rows[place.row]?).slot? place.needle)[place.loop]?).points[place.point]?

/-- The yarn comes to one point before it comes to another: by rows, in a row by its sweep, at a
needle by loops and in a loop by points. -/
def ComesBefore (p : YarnPath α) (a b : PointPlace) : Prop :=
  a.row < b.row ∨ a.row = b.row ∧
    ((∃ r, p.rows[a.row]? = some r ∧ Row.Sooner r.direction a.needle b.needle) ∨
      a.needle = b.needle ∧ (a.loop < b.loop ∨ a.loop = b.loop ∧ a.point < b.point))

theorem enumerates_loops (p : YarnPath α) :
    Enumerates
      (fun q q' : Nat × Needle × Nat => q.1 < q'.1 ∨ q.1 = q'.1 ∧ ∃ r, p.rows[q.1]? = some r ∧
        (Row.Sooner r.direction q.2.1 q'.2.1 ∨ q.2.1 = q'.2.1 ∧ q.2.2 < q'.2.2))
      (fun q l => ∃ r, p.rows[q.1]? = some r ∧
        ∃ loops, r.slot? q.2.1 = some loops ∧ loops[q.2.2]? = some l) p.loops :=
  (enumerates_getElem? p.rows).flatMap Row.enumerates_loops

theorem enumerates_points (p : YarnPath α) : Enumerates p.ComesBefore (fun place record =>
    ∃ position, p.point? place = some position ∧
      .point position (decide (corridorStart ≤ place.point)) = record)
    (p.loops.flatMap Loop.records) := by
  refine (p.enumerates_loops.flatMap Loop.enumerates_records).rename
    (fun q => ⟨q.1.1, q.1.2.1, q.1.2.2, q.2⟩) ?_ ?_
  · rintro ⟨⟨row, n, k⟩, i⟩ ⟨⟨row', n', k'⟩, i'⟩ hbefore
    simp only [Prod.mk.injEq] at hbefore
    obtain (hrow | ⟨hrow, r, hr, hn | ⟨hn, hk⟩⟩) | ⟨⟨hrow, hn, hk⟩, -, -, hi⟩ := hbefore
    · exact .inl hrow
    · exact .inr ⟨hrow, .inl ⟨r, hr, hn⟩⟩
    · exact .inr ⟨hrow, .inr ⟨hn, .inl hk⟩⟩
    · exact .inr ⟨hrow, .inr ⟨hn, .inr ⟨hk, hi⟩⟩⟩
  · rintro ⟨row, n, k, i⟩ record
    simp only [point?, Option.bind_eq_bind, Option.bind_eq_some_iff, Prod.exists,
      PointPlace.mk.injEq]
    constructor
    · rintro ⟨position, ⟨r, hr, loops, hloops, l, hl, hposition⟩, hrecord⟩
      exact ⟨row, n, k, i, ⟨rfl, rfl, rfl, rfl⟩, l, ⟨r, hr, loops, hloops, hl⟩, position,
        hposition, hrecord⟩
    · rintro ⟨_, _, _, _, ⟨rfl, rfl, rfl, rfl⟩, l, ⟨r, hr, loops, hloops, hl⟩, position,
        hposition, hrecord⟩
      exact ⟨position, ⟨r, hr, loops, hloops, l, hl, hposition⟩, hrecord⟩

/-- The loops that are written are those of the slots. -/
theorem loops_perm (p : YarnPath α) : p.loops.Perm (p.slots.flatMap (·.2)) := by
  have hslots : p.slots.flatMap (·.2) = p.rows.flatMap fun r => r.slots.flatMap (·.2) := by
    conv_rhs => rw [← List.zipIdx_map_fst 0 p.rows, List.flatMap_map]
    simp [slots, List.flatMap_assoc, List.flatMap_map]
  rw [hslots]
  exact .flatMap_left _ fun r _ => (List.mergeSort_perm ..).flatMap_right _

/-- A path has no loop if there is none at any needle of any row. -/
theorem loops_eq_nil_iff {p : YarnPath α} : p.loops = [] ↔ ∀ row n, p.loopsOn row n = [] := by
  simp only [loops, Row.loops, List.flatMap_eq_nil_iff, Prod.forall, Row.mem_traversal_iff,
    loopsOn, Row.loopsOn]
  constructor
  · intro h row n
    cases hr : p.rows[row]? with
    | none => rfl
    | some r =>
      cases hloops : r.slot? n with
      | none => simp [hloops]
      | some loops => simp [hloops, h r (List.mem_of_getElem? hr) n loops hloops]
  · intro h r hr n loops hloops
    obtain ⟨row, hr⟩ := List.getElem?_of_mem hr
    simpa [hr, hloops] using h row n

theorem enumerates_records (p : YarnPath α) (lane : Nat) :
    Enumerates (Headed p.ComesBefore) (fun mark record => mark.elim
      (¬p.loops.isEmpty = true ∧ .material lane = record)
      fun place => ∃ position, p.point? place = some position ∧
        .point position (decide (corridorStart ≤ place.point)) = record)
      (p.records lane) := by
  refine p.enumerates_points.headed (.material lane) ?_
  intro hnone
  rw [List.isEmpty_iff.1 hnone, List.flatMap_nil]

/-- A record is the start of a path or one of the points of its slots. -/
theorem length_records (p : YarnPath α) (lane : Nat) : (p.records lane).length =
    (p.slots.map fun slot => (slot.2.map (·.points.length)).sum).sum +
      if p.slots.any fun slot => !slot.2.isEmpty then 1 else 0 := by
  have hpoints : (p.loops.flatMap Loop.records).length =
      (p.slots.map fun slot => (slot.2.map (·.points.length)).sum).sum := by
    have hlength : ∀ l : Loop α, l.records.length = l.points.length := by simp [Loop.records]
    rw [List.length_flatMap, (p.loops_perm.map _).sum_eq, List.map_flatMap, sum_flatMap]
    simp only [hlength]
  have hbare : p.loops.isEmpty = !p.slots.any fun slot => !slot.2.isEmpty := by
    rw [Bool.eq_iff_iff, List.isEmpty_iff, ← List.perm_nil, p.loops_perm.congr_left, List.perm_nil]
    simp
  unfold records
  rw [← hpoints, hbare]
  cases hany : p.slots.any fun slot => !slot.2.isEmpty with
  | true => simp
  | false =>
    rw [hany, Bool.not_false, List.isEmpty_iff] at hbare
    simp [hbare]

end YarnPath

/-! ## Stores -/

theorem sum_ite {β : Type} (l : List β) (f : β → Bool) :
    (l.map fun a => if f a then 1 else 0).sum = l.countP f := by
  induction l with
  | nil => rfl
  | cons a l ih => rw [List.map_cons, List.sum_cons, ih, List.countP_cons, Nat.add_comm]

namespace YarnStore

theorem enumerates_paths (s : YarnStore α) :
    Enumerates (· < ·) (fun lane (e : Nat × YarnPath α) => e.1 = lane ∧ s.path? lane = some e.2)
      s.paths.entries := by
  refine ⟨s.paths.entries.map fun e => (e.1, e), ?_, ?_, ?_⟩
  · simp [Function.comp_def]
  · rw [List.map_map]
    exact List.pairwise_map.2 (s.paths.ascending.imp Nat.compare_eq_lt.1)
  · rintro lane ⟨lane', p⟩
    simp only [List.mem_map, Prod.mk.injEq, path?, Table.get?_eq_some_iff]
    constructor
    · rintro ⟨e, he, rfl, rfl⟩
      exact ⟨rfl, he⟩
    · rintro ⟨rfl, he⟩
      exact ⟨_, he, rfl, rfl⟩

/-- What a record of a store is of. -/
inductive Mark where
  | lane (lane : Nat)
  | point (lane : Nat) (place : PointPlace)

/-- The order of a stream of records: lane by lane, each with its start before its points. -/
def ComesBefore (s : YarnStore α) : Mark → Mark → Prop
  | .lane lane, .lane lane' => lane < lane'
  | .lane lane, .point lane' _ => lane ≤ lane'
  | .point lane _, .lane lane' => lane < lane'
  | .point lane a, .point lane' b => lane < lane' ∨ lane = lane' ∧ (s.path lane).ComesBefore a b

/-- What the stream of records has of a store: the start of each lane that has a loop, and each
point of each loop. The points from number 16 on lie in the corridor. -/
def Holds (s : YarnStore α) : Mark → Record α → Prop
  | .lane lane, record => (∃ row n, (s.path lane).loopsOn row n ≠ []) ∧ .material lane = record
  | .point lane place, record => ∃ position, (s.path lane).point? place = some position ∧
      .point position (decide (16 ≤ place.point)) = record

theorem path_eq {s : YarnStore α} {lane : Nat} {p : YarnPath α} (h : s.path? lane = some p) :
    s.path lane = p := by
  rw [path, h, Option.getD_some]

/-- What no path without rows has is had by a path that a store has. -/
theorem path_iff {s : YarnStore α} {lane : Nat} (has : YarnPath α → Prop) (hempty : ¬has .empty) :
    has (s.path lane) ↔ ∃ p, s.path? lane = some p ∧ has p := by
  unfold path
  cases s.path? lane <;> simp [hempty]

theorem holds_lane_iff {s : YarnStore α} {lane : Nat} {record : Record α} :
    s.Holds (.lane lane) record ↔
      ∃ p, s.path? lane = some p ∧ ¬p.loops.isEmpty = true ∧ .material lane = record := by
  have hloops : (∃ row n, (s.path lane).loopsOn row n ≠ []) ↔
      ¬(s.path lane).loops.isEmpty = true := by
    rw [List.isEmpty_iff, YarnPath.loops_eq_nil_iff]
    simp only [not_forall]
  rw [Holds, hloops]
  exact path_iff (fun p => ¬p.loops.isEmpty = true ∧ .material lane = record) fun h => h.1 rfl

theorem holds_point_iff {s : YarnStore α} {lane : Nat} {place : PointPlace} {record : Record α} :
    s.Holds (.point lane place) record ↔
      ∃ p, s.path? lane = some p ∧ ∃ position, p.point? place = some position ∧
        .point position (decide (corridorStart ≤ place.point)) = record := by
  refine path_iff (fun p => ∃ position, p.point? place = some position ∧
    .point position (decide (corridorStart ≤ place.point)) = record) ?_
  simp [YarnPath.point?, YarnPath.empty]

theorem enumerates_records (s : YarnStore α) : Enumerates s.ComesBefore s.Holds s.records := by
  refine (s.enumerates_paths.flatMap fun e => e.2.enumerates_records e.1).rename
    (fun mark => mark.2.elim (.lane mark.1) (.point mark.1)) ?_ ?_
  · -- Nothing comes before the start of a lane but the lanes before it.
    rintro ⟨lane, _ | a⟩ ⟨lane', _ | b⟩ (hlane | ⟨hlane, ⟨_, p⟩, ⟨rfl, hp⟩, hbefore⟩)
    · exact hlane
    · exact hbefore.elim
    · exact Nat.le_of_lt hlane
    · exact Nat.le_of_eq hlane
    · exact hlane
    · exact hbefore.elim
    · exact .inl hlane
    · refine .inr ⟨hlane, ?_⟩
      rw [path_eq hp]
      exact hbefore
  · rintro (lane | ⟨lane, place⟩) record
    · rw [holds_lane_iff]
      constructor
      · rintro ⟨p, hp, h⟩
        exact ⟨(lane, none), rfl, (lane, p), ⟨rfl, hp⟩, h⟩
      · rintro ⟨⟨_, _ | _⟩, hmark, ⟨_, p⟩, ⟨rfl, hp⟩, h⟩
        · obtain rfl := Mark.lane.inj hmark
          exact ⟨p, hp, h⟩
        · exact Mark.noConfusion hmark
    · rw [holds_point_iff]
      constructor
      · rintro ⟨p, hp, h⟩
        exact ⟨(lane, some place), rfl, (lane, p), ⟨rfl, hp⟩, h⟩
      · rintro ⟨⟨_, _ | _⟩, hmark, ⟨_, p⟩, ⟨rfl, hp⟩, h⟩
        · exact Mark.noConfusion hmark
        · obtain ⟨rfl, rfl⟩ := Mark.point.inj hmark
          exact ⟨p, hp, h⟩

theorem not_comesBefore_self (s : YarnStore α) (mark : Mark) : ¬s.ComesBefore mark mark := by
  cases mark with
  | lane lane => exact Nat.lt_irrefl lane
  | point lane place =>
    simp [ComesBefore, YarnPath.ComesBefore, Row.Sooner]

theorem length_records (s : YarnStore α) : s.records.length =
    (s.slots.map fun slot => (slot.2.map (·.points.length)).sum).sum +
      s.paths.values.countP fun p => p.slots.any fun slot => !slot.2.isEmpty := by
  simp only [records, List.length_flatMap, YarnPath.length_records, slots, List.map_flatMap,
    List.map_map, Function.comp_def, sum_flatMap, List.sum_map_add, sum_ite, Table.values,
    List.countP_map]

/-- The stream of records is the store, flattened. It has the start of each lane that has a loop and
each point of each loop, nothing else, nothing twice and all in order, so there are as many records
as points and lanes with a loop. The sweep of a row comes to every slot once, to those without loops
too. -/
theorem records_flatten (s : YarnStore α) :
    Enumerates s.ComesBefore s.Holds s.records ∧
    (∀ mark, ¬s.ComesBefore mark mark) ∧
    (s.records.length = (s.slots.map fun slot => (slot.2.map (·.points.length)).sum).sum +
      s.paths.values.countP fun p => p.slots.any fun slot => !slot.2.isEmpty) ∧
    ∀ r : Row α, (r.traversal.map Prod.fst).Pairwise (Row.Sooner r.direction) ∧
      ∀ n loops, (n, loops) ∈ r.traversal ↔ r.slot? n = some loops :=
  ⟨s.enumerates_records, s.not_comesBefore_self, s.length_records,
    fun r => ⟨r.pairwise_sooner, fun _ _ => Row.mem_traversal_iff⟩⟩

end YarnStore

end Knitting
