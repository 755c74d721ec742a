import Knitting.Proofs.Fabric.Conservation
import Knitting.Proofs.Fabric.Continuity
import Knitting.Proofs.Height.Gaps

set_option autoImplicit false

/-! # What a stitch leaves alone

One stitch edits the yarn of its lane, the loop before it in that yarn, the record of its needle and
the recorded heights, one after the other. `Fabric.StitchedTo` says what all of this comes to: one
loop is new, one loop that was there is led to it, and everything else is as it was. -/

namespace Knitting

variable {α : Type}

/-- A loop, and the same loop with the end of its yarn led to a point: its last point is at the same
place along the needles, its last three points are at the same height. -/
structure Loop.LedTo (l l' : Loop α) (p : Point α) : Prop where
  carrier : l'.carrier = l.carrier
  direction : l'.direction = l.direction
  length : l'.points.length = l.points.length
  points : ∀ (i : Nat) (q : Point α), l.points[i]? = some q →
    l'.points[i]? = some ⟨if i + 1 = l.points.length then p.x else q.x,
      if l.points.length ≤ i + 3 then p.y else q.y, q.z⟩

theorem Loop.ledTo_endAt {l : Loop α} (hpoints : l.points.length = loopPoints) (p : Point α) :
    l.LedTo (l.endAt p.x p.y) p := by
  have hcount : ¬l.points.length < 3 := by
    rw [hpoints]
    decide
  unfold Loop.endAt
  dsimp only
  rw [if_neg hcount]
  refine ⟨rfl, rfl, List.length_mapIdx, ?_⟩
  intro i q hq
  rw [List.getElem?_mapIdx, hq, Option.map_some]

namespace Fabric

/-- A loop of a row at a needle is the one that the path of a lane remembers as its last: the newest
at the place of that. -/
def Designates (f : Fabric α) (c : Nat) (k : Held) (m : Needle) (i : Nat) : Prop :=
  k.lane = c ∧ (f.store.path c).last = some ⟨k.row, m⟩ ∧ i + 1 = (f.rowLoops k m).length

/-- A height that a stitch of a lane at a needle may raise: those of the lane in the gaps from its
last loop to the needle, and those of the needle in the lane and on the bed. -/
def RaisedBy (f : Fabric α) (n : Needle) (lane : Lane) (k : HeightKey) : Prop :=
  (∃ place, (f.store.path lane.index).last = some place ∧
      k.IsGap (min place.needle.index n.index) (max place.needle.index n.index) lane.index) ∨
    k = ⟨n.index, .corridor, lane.index⟩ ∨ k = ⟨n.index, .ofSide n.bed.side, lane.index⟩

/-- A fabric, and the fabric with one more stitch: the loop `new` in row `row` of its lane, which
starts at the point `start`. -/
structure StitchedTo (f f' : Fabric α) (direction : Direction) (n : Needle) (lane : Lane)
    (row : Nat) (new : Loop α) (start : Point α) : Prop where
  /-- The new loop is one of the lane, and has all of its points. -/
  own : new.BelongsTo lane.index direction
  starts : new.points.head? = some start
  /-- There is one loop more. -/
  count : f'.store.loopCount = f.store.loopCount + 1
  /-- The row of the stitch has it at the needle; no row gains any other loop, or loses one. -/
  gained : ∀ k m, (f'.rowLoops k m).length = (f.rowLoops k m).length +
    if k = ⟨lane.index, row⟩ ∧ m = n then 1 else 0
  newest : (f'.rowLoops ⟨lane.index, row⟩ n).getLast? = some new
  /-- The last loop of the lane is led to where the new one starts. -/
  led : ∀ k m (i : Nat) (l : Loop α), (f.rowLoops k m)[i]? = some l →
    f.Designates lane.index k m i → ∃ l', (f'.rowLoops k m)[i]? = some l' ∧ l.LedTo l' start
  /-- Every other loop stays as it was. -/
  kept : ∀ k m (i : Nat) (l : Loop α), (f.rowLoops k m)[i]? = some l →
    ¬f.Designates lane.index k m i → (f'.rowLoops k m)[i]? = some l
  last : (f'.store.path lane.index).last = some ⟨row, n⟩
  /-- The paths of the other lanes stay as they were. -/
  paths : ∀ c, c ≠ lane.index → f'.store.path? c = f.store.path? c
  /-- No row turns. -/
  directions : ∀ (c i : Nat) (r : Row α), (f.store.path c).rows[i]? = some r →
    ∃ r', (f'.store.path c).rows[i]? = some r' ∧ r'.direction = r.direction
  /-- The other needles hold what they held. -/
  held : ∀ m, m ≠ n → f'.heldAt m = f.heldAt m
  /-- The other heights stay as they were. -/
  heights : ∀ k, ¬f.RaisedBy n lane k → f'.heights.get? k = f.heights.get? k
  geometry : f'.geometry = f.geometry

/-! ## The yarn -/

/-- The loops of a row after a stitch: those that it had, the last one of the lane led to the
stitch, and then the new one if that is in this row. -/
theorem getElem?_ledLoops (f : Fabric α) (c : Nat) (seam : α × α) {k : Held} {m : Needle} {i : Nat}
    {l : Loop α} (hl : (f.rowLoops k m)[i]? = some l) :
    (f.Designates c k m i → (f.ledLoops c seam k m)[i]? = some (l.endAt seam.1 seam.2)) ∧
      (¬f.Designates c k m i → (f.ledLoops c seam k m)[i]? = some l) := by
  have hlt := (List.getElem?_eq_some_iff.1 hl).1
  unfold ledLoops Designates
  by_cases hat : k.lane = c ∧ (f.store.path c).last = some ⟨k.row, m⟩
  · rw [if_pos hat, List.getElem?_modify, hl, Option.map_eq_map, Option.map_some]
    constructor
    · rintro ⟨-, -, hi⟩
      rw [if_pos (by omega)]
    · intro hother
      rw [if_neg fun hi => hother ⟨hat.1, hat.2, by omega⟩]
  · rw [if_neg hat]
    exact ⟨fun h => absurd ⟨h.1, h.2.1⟩ hat, fun _ => hl⟩

theorem length_ledLoops (f : Fabric α) (c : Nat) (seam : α × α) (k : Held) (m : Needle) :
    (f.ledLoops c seam k m).length = (f.rowLoops k m).length := by
  unfold ledLoops
  split
  · exact List.length_modify ..
  · rfl

variable [Scalar α]

/-- A stitch turns no row. -/
theorem WellFormed.directions_place {f : Fabric α} (hf : f.WellFormed) (direction : Direction)
    (n : Needle) (lane : Lane) (height : α) (head : Option α) (knit : Bool) {c i : Nat}
    {r : Row α} (hr : (f.store.path c).rows[i]? = some r) :
    ∃ r', ((f.place direction n lane height head knit).1.store.path c).rows[i]? = some r' ∧
      r'.direction = r.direction := by
  rw [path_place hf.last_eq_none]
  by_cases hc : c = lane.index
  · subst hc
    -- Neither the lead to the stitch nor its new loop changes the direction of a row.
    obtain ⟨led, hled, hdirection⟩ : ∃ led,
        (f.leadPath lane direction n height).rows[i]? = some led ∧
          led.direction = r.direction := by
      rw [leadPath, YarnPath.getElem?_modifyLastLoop, hr, Option.map_some]
      refine ⟨_, rfl, ?_⟩
      split
      · rfl
      · split <;> rfl
    rw [if_pos rfl, YarnPath.getElem?_addLoop (f.stitchRow_le_length lane direction n knit height)]
    split
    · next hi =>
      subst hi
      refine ⟨_, rfl, ?_⟩
      rw [hled, Option.getD_some]
      cases knit
      · exact (Row.direction_extend ..).trans hdirection
      · exact hdirection
    · exact ⟨led, hled, hdirection⟩
  · rw [if_neg hc]
    exact ⟨r, hr, rfl⟩

/-! ## The heights -/

theorem get?_heights_reach {f : Fabric α} (lane : Lane) (direction : Direction) (n : Needle)
    (height : α) {k : HeightKey} (hk : ¬f.RaisedBy n lane k) :
    (f.reach lane direction n height).1.heights.get? k = f.heights.get? k := by
  unfold reach
  cases htail : f.tail? lane.index with
  | none => rfl
  | some t =>
    -- A lane with a tail remembers where it is.
    have hlast : (f.store.path lane.index).last = some t.1 := by
      unfold tail? at htail
      obtain ⟨path, hpath, htail⟩ := Option.bind_eq_some_iff.1 htail
      obtain ⟨place, hplace, htail⟩ := Option.bind_eq_some_iff.1 htail
      obtain ⟨loop, -, htail⟩ := Option.bind_eq_some_iff.1 htail
      obtain ⟨point, -, htail⟩ := Option.bind_eq_some_iff.1 htail
      obtain rfl := Option.some.inj htail
      rw [YarnStore.path, hpath, Option.getD_some, hplace]
    simp only [leadTo, HeightIndex.get?_raiseRange]
    rw [if_neg]
    intro hgap
    rw [min_comm, max_comm] at hgap
    exact hk (.inl ⟨t.1, hlast, hgap⟩)

theorem get?_heights_place {f : Fabric α} (direction : Direction) (n : Needle) (lane : Lane)
    (height : α) (head : Option α) (knit : Bool) {k : HeightKey} (hk : ¬f.RaisedBy n lane k) :
    (f.place direction n lane height head knit).1.heights.get? k = f.heights.get? k := by
  have hcorridor : k ≠ .place n.index .corridor lane.index := fun h => hk (.inr (.inl h))
  have hside : k ≠ .place n.index (.ofSide n.bed.side) lane.index := by
    intro h
    refine hk (.inr (.inr (h.trans ?_)))
    cases n.bed.side <;> rfl
  -- The record of held rows has no part in the heights.
  have hrecord : ∀ (g : Fabric α) (h : Held),
      (if knit then g.setHeld n h else g.addHeld n h).heights = g.heights := by
    intro g h
    unfold addHeld setHeld
    split
    · rfl
    · split <;> rfl
  simp only [place, HeightIndex.get?_raise, if_neg hside, if_neg hcorridor, hrecord]
  exact get?_heights_reach lane direction n height hk

/-! ## The stitch -/

theorem geometry_place (f : Fabric α) (direction : Direction) (n : Needle) (lane : Lane)
    (height : α) (head : Option α) (knit : Bool) :
    (f.place direction n lane height head knit).1.geometry = f.geometry := by
  have hreach : (f.reach lane direction n height).1.geometry = f.geometry := by
    unfold reach
    split <;> rfl
  have hrecord : ∀ (g : Fabric α) (h : Held),
      (if knit then g.setHeld n h else g.addHeld n h).geometry = g.geometry := by
    intro g h
    unfold addHeld setHeld
    split
    · rfl
    · split <;> rfl
  simp only [place, hrecord, hreach]

theorem stitchedTo_place {f : Fabric α} (hf : f.WellFormed) {b : Ledger α} (hb : f.Tracks b)
    (direction : Direction) (n : Needle) (lane : Lane) (height : α) (head : Option α)
    (knit : Bool) :
    ∃ start, f.StitchedTo (f.place direction n lane height head knit).1 direction n lane
      (f.stitchRow lane direction n knit).row (f.stitchLoop lane direction n height head)
      start := by
  obtain ⟨start, hstart, hx, hy⟩ := f.head?_stitchLoop lane direction n height head
  have hloops (k : Held) (m : Needle) :=
    hf.rowLoops_place direction n m lane height head knit k
  refine ⟨start, ?_⟩
  exact {
    own := f.belongsTo_stitchLoop lane direction n height head
    starts := hstart
    count := by
      rw [(hb.stitch hf direction n lane height head knit).loopCount_eq, hb.loopCount_eq]
      simp [Ledger.stitch]
    gained := by
      intro k m
      rw [hloops, List.length_append, length_ledLoops, apply_ite List.length]
      rfl
    newest := by
      rw [hloops]
      exact (congrArg List.getLast? (congrArg _ (if_pos ⟨rfl, rfl⟩))).trans List.getLast?_concat
    led := by
      intro k m i l hl hlast
      have hled := (f.getElem?_ledLoops lane.index (f.seam lane direction n height) hl).1 hlast
      have hpoints : l.points.length = loopPoints := by
        have hmem := List.mem_of_getElem? hl
        rw [rowLoops_eq] at hmem
        obtain ⟨row, -, hbelongs⟩ := (hf.rows k.lane).belongsTo hmem
        exact hbelongs.points
      refine ⟨_, ?_, Loop.ledTo_endAt hpoints start⟩
      rw [hloops, List.getElem?_append_left (List.getElem?_eq_some_iff.1 hled).1, hled, hx, hy]
    kept := by
      intro k m i l hl hother
      have hkept := (f.getElem?_ledLoops lane.index (f.seam lane direction n height) hl).2 hother
      rw [hloops, List.getElem?_append_left (List.getElem?_eq_some_iff.1 hkept).1, hkept]
    last := by rw [last_place hf, if_pos rfl]
    paths := by
      intro c hc
      rw [path?_place hf.last_eq_none, if_neg hc]
    directions := fun c i r hr => hf.directions_place direction n lane height head knit hr
    held := by
      intro m hm
      exact (heldAt_place ..).trans (if_neg hm)
    heights := fun k hk => get?_heights_place direction n lane height head knit hk
    geometry := geometry_place .. }

/-- A stitch adds one loop, leads the last loop of its lane to where that starts, and changes no
other loop, no direction of a row, nothing that another needle holds, and no height but those of its
lane on its way from the last loop and at its needle. -/
theorem stitch_frame (g : Geometry α) (ops : List Operation) (knit : Bool) (direction : Direction)
    (n : Needle) (lane : Lane) :
    ∃ row new start, (run g ops).StitchedTo ((run g ops).apply (.stitch knit direction n lane))
      direction n lane row new start := by
  rw [apply_stitch]
  obtain ⟨start, hstitched⟩ := stitchedTo_place (wellFormed_run g ops) (tracks_ledger g ops)
    direction n lane ((run g ops).stitchBase knit n) ((run g ops).stitchHead? knit n) knit
  exact ⟨_, _, start, hstitched⟩

end Fabric

end Knitting
