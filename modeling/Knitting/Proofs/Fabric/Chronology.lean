import Knitting.Proofs.Fabric.Continuity
import Knitting.Proofs.Yarn.Sweep

set_option autoImplicit false

/-! # Yarn is written in the order in which it was made

A run without transfers in which every lane goes onward until it turns (`Operation.Onward`) leaves
the yarn of each lane in the order of its stitches: the coordinates of its loops are written in the
order in which the loops were made, with a row for each run of stitches in one direction, and where
one loop ends the next one starts (`Fabric.records_chronological`). -/

namespace Knitting

variable {α : Type}

/-! ## The stitches of a lane -/

namespace Operation

/-- The direction and the needle of a call that stitches with a lane. -/
def stitchOf? (c : Nat) : Operation → Option (Direction × Needle)
  | .stitch _ direction n lane => if lane.index = c then some (direction, n) else none
  | .transfer _ _ _ => none
  | .drop _ => none

/-- The stitches of a lane, one after the other. -/
def stitchesOf (c : Nat) (ops : List Operation) : List (Direction × Needle) :=
  ops.filterMap (stitchOf? c)

/-- Calls that stitch in a direction and move no loops, and by which no lane goes back without
turning. -/
structure Onward (ops : List Operation) : Prop where
  untransferred : ∀ source target laneCount, Operation.transfer source target laneCount ∉ ops
  directed : ∀ knit direction n lane, Operation.stitch knit direction n lane ∈ ops →
    direction ≠ .undirected
  onward : ∀ c, (stitchesOf c ops).IsChain fun s s' =>
    s.1 = s'.1 → s.1.Before s.2.index s'.2.index

theorem stitchesOf_concat (c : Nat) (ops : List Operation) (op : Operation) :
    stitchesOf c (ops ++ [op]) = stitchesOf c ops ++ (op.stitchOf? c).toList := by
  rw [stitchesOf, List.filterMap_append]
  cases h : op.stitchOf? c <;> simp [stitchesOf, h]

theorem stitchesOf_eq_nil_iff {c : Nat} {ops : List Operation} :
    stitchesOf c ops = [] ↔ ∀ op ∈ ops, op.lane? ≠ some c := by
  rw [stitchesOf, List.filterMap_eq_nil_iff]
  refine forall₂_congr fun op _ => ?_
  cases op <;> simp [stitchOf?, lane?]

theorem Onward.init {ops : List Operation} {op : Operation} (h : Onward (ops ++ [op])) :
    Onward ops where
  untransferred source target laneCount hmem :=
    h.untransferred source target laneCount (List.mem_append_left _ hmem)
  directed knit direction n lane hmem :=
    h.directed knit direction n lane (List.mem_append_left _ hmem)
  onward c := by
    have hchain := h.onward c
    rw [stitchesOf_concat] at hchain
    exact (List.isChain_append.1 hchain).1

/-- The last stitch of a lane goes onward from the one before it. -/
theorem Onward.last {ops : List Operation} {knit : Bool} {direction : Direction} {n : Needle}
    {lane : Lane} (h : Onward (ops ++ [.stitch knit direction n lane])) :
    ∀ s ∈ (stitchesOf lane.index ops).getLast?, s.1 = direction →
      s.1.Before s.2.index n.index := by
  intro s hs
  have hchain := h.onward lane.index
  rw [stitchesOf_concat] at hchain
  exact (List.isChain_append.1 hchain).2.2 s hs (direction, n) (by simp [stitchOf?])

end Operation

/-! ## The loops of a lane -/

namespace Ledger

/-- The loops that a lane made, in their order. -/
def madeBy (b : Ledger α) (c : Nat) : List (Loop α) := b.made.filter fun l => l.carrier = c

/-- They are those of its numbers. -/
theorem madeBy_eq (b : Ledger α) (c : Nat) :
    b.madeBy c = (b.numbersOf c).filterMap fun i => b.made[i]? := by
  unfold madeBy numbersOf
  generalize b.made = made
  induction made using List.reverseRecOn with
  | nil => rfl
  | append_singleton made l ih =>
    have hrest : ∀ i ∈ List.range made.length, (made ++ [l])[i]? = made[i]? := fun i hi =>
      List.getElem?_append_left (List.mem_range.1 hi)
    rw [List.filter_append, ih, List.length_append, List.length_singleton, List.range_succ,
      List.filter_append, List.filterMap_append]
    congr 1
    · have hfilter := List.filter_congr (l := List.range made.length)
        (p := fun i => ((made ++ [l])[i]?).map (·.carrier) = some c)
        (q := fun i => (made[i]?).map (·.carrier) = some c) fun i hi => by rw [hrest i hi]
      rw [hfilter]
      exact (List.filterMap_congr fun i hi => hrest i (List.mem_of_mem_filter hi)).symm
    · by_cases hl : l.carrier = c <;> simp [hl]

/-- Loops of a lane that meet do so in the order in which they were made. -/
theorem isChain_madeBy {b : Ledger α} {c : Nat} (h : (b.numbersOf c).IsChain b.Joined) :
    (b.madeBy c).IsChain Loop.Meets := by
  rw [madeBy_eq]
  generalize b.numbersOf c = is at h
  induction is with
  | nil => exact .nil
  | cons i is ih =>
    obtain ⟨hhead, hrest⟩ := List.isChain_cons.1 h
    rw [List.filterMap_cons]
    cases hi : b.made[i]? with
    | none => exact ih hrest
    | some l =>
      refine List.isChain_cons.2 ⟨?_, ih hrest⟩
      cases is with
      | nil => exact nofun
      | cons j is =>
        obtain ⟨l₁, l₂, hl₁, hl₂, hmeet⟩ := hhead j rfl
        obtain rfl := Option.some.inj (hi.symm.trans hl₁)
        rw [List.filterMap_cons_some hl₂]
        rintro _ ⟨⟩
        exact hmeet

variable {b : Ledger α} {tail : Option Nat} {l : Loop α}

/-- The loops of numbers that a stitch does not lead to itself. -/
theorem filterMap_made_stitch {is : List Nat} {c : Nat} (his : is ⊆ b.numbersOf c)
    (hne : ∀ i ∈ is, tail ≠ some i) (seam : α × α) (row : Held) (n : Needle) (l : Loop α) :
    is.filterMap (fun i => (b.stitch tail seam row n l).made[i]?) =
      is.filterMap fun i => b.made[i]? := by
  refine List.filterMap_congr fun i hi => ?_
  obtain ⟨l', hl', -⟩ := mem_numbersOf.1 (his hi)
  rw [getElem?_made_stitch hl', if_neg (hne i hi), hl']

/-- A stitch that leads the newest loop of its lane makes the next one. -/
theorem madeBy_stitch_self {c : Nat} (hl : l.carrier = c) (htail : tail = (b.numbersOf c).getLast?)
    (seam : α × α) (row : Held) (n : Needle) :
    (b.stitch tail seam row n l).madeBy c =
      (b.madeBy c).modifyLast (fun l => l.endAt seam.1 seam.2) ++ [l] := by
  rw [madeBy_eq, madeBy_eq, numbersOf_stitch, if_pos hl, List.filterMap_append]
  congr 1
  · rcases List.eq_nil_or_concat' (b.numbersOf c) with hnil | ⟨is, t, hconcat⟩
    · rw [hnil]
      rfl
    · have ht : t ∈ b.numbersOf c := by simp [hconcat]
      obtain ⟨l', hl', -⟩ := mem_numbersOf.1 ht
      have his : is ⊆ b.numbersOf c := hconcat ▸ List.subset_append_left _ _
      have hnodup := b.nodup_numbersOf c
      rw [hconcat] at hnodup
      rw [hconcat, List.getLast?_concat] at htail
      subst htail
      have hne : ∀ i ∈ is, some t ≠ some i := by
        rintro i hi ⟨⟩
        exact (List.nodup_append.1 hnodup).2.2 t hi t (by simp) rfl
      rw [hconcat, List.filterMap_append, List.filterMap_append, filterMap_made_stitch his hne]
      simp only [List.filterMap_cons, List.filterMap_nil, getElem?_made_stitch hl', hl', if_pos,
        List.modifyLast_concat]
  · simp [getElem?_made_stitch_self]

theorem madeBy_stitch_of_ne {c c' : Nat} (hc : c' ≠ c) (hl : l.carrier = c')
    (htail : tail = (b.numbersOf c').getLast?) (seam : α × α) (row : Held) (n : Needle) :
    (b.stitch tail seam row n l).madeBy c = b.madeBy c := by
  rw [madeBy_eq, madeBy_eq, numbersOf_stitch, if_neg (hl ▸ hc), List.append_nil]
  refine filterMap_made_stitch (List.Subset.refl _) (fun i hi hlast => hc ?_) ..
  -- The loop that is led is one of another lane.
  obtain ⟨l₁, hl₁, hcarrier⟩ := mem_numbersOf.1 hi
  obtain ⟨l₂, hl₂, hcarrier'⟩ := mem_numbersOf.1 (List.mem_of_getLast? (htail.symm.trans hlast))
  obtain rfl := Option.some.inj (hl₁.symm.trans hl₂)
  exact hcarrier'.symm.trans hcarrier

end Ledger

namespace Fabric

/-- The lanes of a fabric are written in ascending order, each with its loops. -/
theorem WellFormed.records_eq {f : Fabric α} (hf : f.WellFormed) :
    f.store.records = f.store.paths.keys.flatMap fun c =>
      .material c :: (f.store.path c).loops.flatMap Loop.records := by
  rw [YarnStore.records, Table.keys, List.flatMap_map]
  refine List.flatMap_congr ?_
  rintro ⟨c, p⟩ hp
  have hpath : f.store.path? c = some p := Table.get?_eq_some_iff.2 hp
  -- A path knows a place that has loops, and the sweep of its row comes there.
  have hloops : p.loops ≠ [] := by
    obtain ⟨place, -, hne⟩ := (hf.paths c p hpath).last
    obtain ⟨l, hl⟩ := List.exists_mem_of_ne_nil _ hne
    obtain ⟨row, hrow, -⟩ := (hf.paths c p hpath).rows.belongsTo hl
    have hslot : l ∈ row.loopsOn place.needle := by simpa [YarnPath.loopsOn, hrow] using hl
    have hmem := Row.mem_traversal_iff.2 (Row.slot?_eq_some_of_loopsOn (List.ne_nil_of_mem hslot))
    refine List.ne_nil_of_mem (a := l) (List.mem_flatMap.2 ⟨row, List.mem_of_getElem? hrow, ?_⟩)
    exact List.mem_flatMap.2 ⟨_, hmem, hslot⟩
  simp only [YarnPath.records, List.isEmpty_iff, hloops, if_false, YarnStore.path, hpath,
    Option.getD_some]

variable [Scalar α]

/-- Without transfers every stitch leads the loop that its lane made last. -/
theorem leadsNewest_of_untransferred {g : Geometry α} {ops : List Operation}
    (h : ∀ source target laneCount, Operation.transfer source target laneCount ∉ ops) (c : Nat) :
    (run g ops).LeadsNewest (ledger g ops) c := by
  refine (run_leadsNewest g ops c).2.2 ?_
  intro pre op post hops _ hburies
  cases op with
  | transfer source target laneCount => exact h source target laneCount (by simp [hops])
  | _ => exact hburies

/-- The path of a lane has the stitches of a history, which are those of the lane with the loops
that it made. -/
structure HasHistory (f : Fabric α) (b : Ledger α) (stitches : List (Direction × Needle)) (c : Nat)
    (history : List (Stitched α)) : Prop where
  stitches : history.map (fun s => (s.direction, s.needle)) = stitches
  loops : history.map (·.loop) = b.madeBy c
  path : (f.store.path c).Chronological history

variable {f : Fabric α} {b : Ledger α} {stitches : List (Direction × Needle)} {c : Nat}
  {history : List (Stitched α)}

/-- A stitch goes onward from the last one of its lane. -/
theorem HasHistory.stitch {lane : Lane} (h : f.HasHistory b stitches lane.index history)
    (hf : f.WellFormed) (hleads : f.LeadsNewest b lane.index) {direction : Direction} {n : Needle}
    (hdirected : direction ≠ .undirected)
    (honward : ∀ s ∈ stitches.getLast?, s.1 = direction → s.1.Before s.2.index n.index)
    (height : α) (head : Option α) (knit : Bool) :
    let seam := f.seam lane direction n height
    let l := f.stitchLoop lane direction n height head
    let led := history.modifyLast (Stitched.led fun l => l.endAt seam.1 seam.2)
    (f.place direction n lane height head knit).1.HasHistory
      (b.stitch (f.tailNumber? b lane.index) seam (f.stitchRow lane direction n knit) n l)
      (stitches ++ [(direction, n)]) lane.index (led ++ [⟨direction, n, l⟩]) := by
  intro seam l led
  have hled : led.map (fun s => (s.direction, s.needle)) = stitches :=
    (Stitched.map_place_modifyLast ..).trans h.stitches
  refine ⟨?_, ?_, ?_⟩
  · rw [List.map_append, hled]
    rfl
  · rw [Ledger.madeBy_stitch_self (c := lane.index) rfl hleads, ← h.loops, List.map_append,
      Stitched.map_loop_modifyLast]
    rfl
  · rw [path_place hf.last_eq_none, if_pos rfl]
    have hpath := h.path.modifyLastLoop fun l => l.endAt seam.1 seam.2
    rw [stitchRow, ← YarnPath.nextRow_modifyLastLoop]
    refine hpath.addLoop (s := ⟨direction, n, l⟩) rfl hdirected ?_ knit
    intro e he hsame
    refine honward (e.direction, e.needle) ?_ hsame
    rw [← hled, List.getLast?_map]
    exact Option.mem_map_of_mem _ he

/-- A stitch of another lane changes nothing. -/
theorem HasHistory.stitch_of_ne {lane : Lane} (h : f.HasHistory b stitches c history)
    (hc : lane.index ≠ c) (hf : f.WellFormed) (hleads : f.LeadsNewest b lane.index)
    (direction : Direction) (n : Needle) (height : α) (head : Option α) (knit : Bool) :
    (f.place direction n lane height head knit).1.HasHistory
      (b.stitch (f.tailNumber? b lane.index) (f.seam lane direction n height)
        (f.stitchRow lane direction n knit) n (f.stitchLoop lane direction n height head))
      stitches c history where
  stitches := h.stitches
  loops := h.loops.trans (Ledger.madeBy_stitch_of_ne hc rfl hleads ..).symm
  path := by
    rw [path_place hf.last_eq_none, if_neg (Ne.symm hc)]
    exact h.path

theorem exists_history (g : Geometry α) {ops : List Operation} (h : Operation.Onward ops)
    (c : Nat) :
    ∃ history, (run g ops).HasHistory (ledger g ops) (Operation.stitchesOf c ops) c history := by
  induction ops using List.reverseRecOn with
  | nil => exact ⟨[], rfl, rfl, YarnPath.chronological_empty⟩
  | append_singleton ops op ih =>
    obtain ⟨history, hhistory⟩ := ih h.init
    rw [run_concat, ledger_concat, Operation.stitchesOf_concat]
    cases op with
    | stitch knit direction n lane =>
      have hf := wellFormed_run g ops
      have hleads := leadsNewest_of_untransferred (g := g) h.init.untransferred lane.index
      rw [apply_stitch]
      by_cases hc : lane.index = c
      · subst hc
        have hdirected := h.directed knit direction n lane (by simp)
        simp only [Operation.stitchOf?, if_pos]
        exact ⟨_, hhistory.stitch hf hleads hdirected h.last _ _ knit⟩
      · simp only [Operation.stitchOf?, if_neg hc, Option.toList_none, List.append_nil]
        exact ⟨history, hhistory.stitch_of_ne hc hf hleads direction n _ _ knit⟩
    | transfer source target laneCount =>
      exact absurd (by simp) (h.untransferred source target laneCount)
    | drop n =>
      have hstore : ((run g ops).apply (.drop n)).store = (run g ops).store := by
        rcases (run g ops).apply_drop n with ⟨-, h⟩ | h <;> rw [h]
        exact store_clearHeld ..
      refine ⟨history, ?_, hhistory.loops, hstore ▸ hhistory.path⟩
      exact hhistory.stitches.trans (List.append_nil _).symm

/-- In a run without transfers by which no lane goes back without turning, the coordinates of each
lane are those of its loops in the order in which they were made: its stitches are written one after
the other, with a row for each run of them in one direction, and each loop ends where the next one
starts. -/
theorem records_chronological (g : Geometry α) {ops : List Operation} (h : Operation.Onward ops) :
    (∃ lanes : List Nat, lanes.Pairwise (· < ·) ∧
      (∀ c, c ∈ lanes ↔ Operation.stitchesOf c ops ≠ []) ∧
      (run g ops).store.records = lanes.flatMap fun c =>
        .material c :: ((ledger g ops).madeBy c).flatMap Loop.records) ∧
    ∀ c, ∃ history : List (Stitched α),
      history.map (fun s => (s.direction, s.needle)) = Operation.stitchesOf c ops ∧
      history.map (·.loop) = (ledger g ops).madeBy c ∧
      List.Forall₂ (fun row run => (∀ s ∈ run, s.direction = row.direction) ∧
          row.traversal = run.map fun s => (s.needle, [s.loop]))
        ((run g ops).store.path c).rows (history.splitBy Stitched.sameWay) ∧
      (history.map (·.loop)).IsChain Loop.Meets := by
  have hf := wellFormed_run g ops
  have hloops : ∀ c, ((run g ops).store.path c).loops = (ledger g ops).madeBy c := by
    intro c
    obtain ⟨history, hhistory⟩ := exists_history g h c
    exact hhistory.path.laid.loops_eq.trans hhistory.loops
  refine ⟨⟨(run g ops).store.paths.keys, ?_, ?_, ?_⟩, ?_⟩
  · refine List.pairwise_map.2 ((run g ops).store.paths.ascending.imp ?_)
    exact Nat.compare_eq_lt.1
  · intro c
    rw [Ne, Operation.stitchesOf_eq_nil_iff, ← path?_run_eq_none_iff g, ← ne_eq,
      Option.ne_none_iff_exists']
    simp only [Table.keys, List.mem_map, Prod.exists, exists_and_right, exists_eq_right,
      YarnStore.path?, Table.get?_eq_some_iff]
  · simp only [hf.records_eq, hloops]
  · intro c
    obtain ⟨history, hhistory⟩ := exists_history g h c
    refine ⟨history, hhistory.stitches, hhistory.loops, ?_, ?_⟩
    · exact hhistory.path.laid.forall₂.imp fun row run hrow => ⟨hrow.same, hrow.traversal_eq⟩
    · rw [hhistory.loops]
      refine Ledger.isChain_madeBy (run_joined g ops ?_ c)
      intro pre op c' hpre _
      refine leadsNewest_of_untransferred ?_ c'
      intro source target laneCount hmem
      exact h.untransferred source target laneCount (hpre.subset (List.mem_append_left _ hmem))

/-- Two lanes by turns on both beds: lane 0 goes to the right and comes back over a needle that was
dropped, lane 1 goes on to the right. -/
def turningRun : List Operation :=
  [.stitch true .right ⟨.front, 0⟩ ⟨0, 2⟩, .stitch true .right ⟨.front, 2⟩ ⟨1, 2⟩,
    .stitch false .right ⟨.back, 4⟩ ⟨0, 2⟩, .drop ⟨.front, 0⟩,
    .stitch true .left ⟨.front, 0⟩ ⟨0, 2⟩, .stitch false .right ⟨.back, 6⟩ ⟨1, 2⟩]

theorem records_chronological_there_and_back :
    Operation.Onward turningRun ∧
    ∃ history : List (Stitched Float32),
      history.map (fun s => (s.direction, s.needle)) =
        [(.right, ⟨.front, 0⟩), (.right, ⟨.back, 4⟩), (.left, ⟨.front, 0⟩)] ∧
      history.map (·.loop) = (ledger .standard turningRun).madeBy 0 ∧
      List.Forall₂ (fun row run => (∀ s ∈ run, s.direction = row.direction) ∧
          row.traversal = run.map fun s => (s.needle, [s.loop]))
        ((run .standard turningRun).store.path 0).rows (history.splitBy Stitched.sameWay) ∧
      (history.map (·.loop)).IsChain Loop.Meets := by
  have h : Operation.Onward turningRun := by
    refine ⟨by simp [turningRun], ?_, ?_⟩
    · intro knit direction n lane hmem
      simp only [turningRun, List.mem_cons, Operation.stitch.injEq] at hmem
      grind
    · intro c
      rcases c with _ | _ | c
      · have hstitches : Operation.stitchesOf 0 turningRun =
            [(.right, ⟨.front, 0⟩), (.right, ⟨.back, 4⟩), (.left, ⟨.front, 0⟩)] := rfl
        simp [hstitches, Direction.Before]
      · have hstitches : Operation.stitchesOf 1 turningRun =
            [(.right, ⟨.front, 2⟩), (.right, ⟨.back, 6⟩)] := rfl
        simp [hstitches, Direction.Before]
      · have hstitches : Operation.stitchesOf (c + 2) turningRun = [] :=
          Operation.stitchesOf_eq_nil_iff.2 (by simp [turningRun, Operation.lane?])
        rw [hstitches]
        exact .nil
  exact ⟨h, (records_chronological .standard h).2 0⟩

end Fabric

end Knitting
