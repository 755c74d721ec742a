import Knitting.Proofs.Fabric.Frame
import Knitting.Proofs.Number.Exact

set_option autoImplicit false

/-! # Yarn does not run through yarn

Yarn arrives at a stitch no lower than it left the stitch before, above whatever its own lane left
in the gaps between the two, and above the lanes that it crosses at either end (`Fabric.Clears`). It
then is what is recorded of these gaps. What is recorded never sinks, so each crossing of a gap is
higher than all before it (`Fabric.stitches_clear`). All of this is for heights that are added and
compared exactly. -/

namespace Knitting

open Scalar

namespace HeightIndex

variable {h : HeightIndex ℚ} {floor epsilon : ℚ}

/-! ## Lifting a height -/

theorem le_lift (hepsilon : 0 < epsilon) (highest : Option ℚ) :
    floor ≤ lift floor highest epsilon := by
  cases highest with
  | none => exact le_rfl
  | some top =>
    simp only [lift, le_rat_iff]
    split
    · next hle => exact hle.trans (le_add_of_nonneg_right hepsilon.le)
    · exact le_rfl

theorem lt_lift (hepsilon : 0 < epsilon) {heights : List ℚ} {v : ℚ} (hv : v ∈ heights) :
    v < lift floor (greatest? heights) epsilon := by
  cases htop : greatest? heights with
  | none => simp [greatest?_eq_none_iff.1 htop] at hv
  | some top =>
    have hle : v ≤ top := (le_rat_iff v top).1 ((isTop_greatest? htop).le v hv (isNumber_rat v))
    simp only [lift, le_rat_iff]
    split
    · exact hle.trans_lt (lt_add_of_pos_right top hepsilon)
    · next hlt => exact hle.trans_lt (not_le.1 hlt)

theorem le_clearSpan (hepsilon : 0 < epsilon) (lo hi : Int) (lane : Nat) :
    floor ≤ h.clearSpan floor lo hi lane epsilon :=
  le_lift hepsilon _

/-- What clears a span is above all that is recorded of its gaps. -/
theorem lt_clearSpan (hepsilon : 0 < epsilon) {lo hi : Int} {lane : Nat} {k : HeightKey}
    (hk : k.IsGap lo hi lane) {v : ℚ} (hv : h.get? k = some v) :
    v < h.clearSpan floor lo hi lane epsilon := by
  obtain ⟨heights, hmax, hmem⟩ := h.exists_rangeMax_eq lo hi lane
  rw [clearSpan, hmax]
  exact lt_lift hepsilon ((hmem v).2 ⟨k, hk, hv⟩)

theorem le_clearLanes (hepsilon : 0 < epsilon) (needle : Int) (lanes : List Nat) :
    floor ≤ h.clearLanes floor needle lanes epsilon :=
  le_lift hepsilon _

/-- What clears some lanes at a needle is above all that is recorded of them there. -/
theorem lt_clearLanes (hepsilon : 0 < epsilon) {needle : Int} {lanes : List Nat} {c : Nat}
    (hc : c ∈ lanes) {v : ℚ} (hv : h.get? ⟨needle, .corridor, c⟩ = some v) :
    v < h.clearLanes floor needle lanes epsilon :=
  lt_lift hepsilon (List.mem_filterMap.2 ⟨c, hc, hv⟩)

/-! ## Recorded heights -/

/-- No height of an index is above the one that another has at the same place. -/
def Below (h h' : HeightIndex ℚ) : Prop :=
  ∀ k v, h.get? k = some v → ∃ v', h'.get? k = some v' ∧ v ≤ v'

theorem Below.refl (h : HeightIndex ℚ) : h.Below h := fun _ v hv => ⟨v, hv, le_rfl⟩

theorem Below.trans {h h' h'' : HeightIndex ℚ} (hle : h.Below h') (hle' : h'.Below h'') :
    h.Below h'' := by
  intro k v hv
  obtain ⟨v', hv', hvv'⟩ := hle k v hv
  obtain ⟨v'', hv'', hv'v''⟩ := hle' k v' hv'
  exact ⟨v'', hv'', hvv'.trans hv'v''⟩

theorem le_raised (there height : ℚ) : there ≤ raised (some there) height := by
  simp only [raised, lt_rat_iff]
  split
  · next hlt => exact hlt.le
  · exact le_rfl

/-- A height above all that is recorded at a place takes its place. -/
theorem raised_of_above {there : Option ℚ} {height : ℚ} (h : ∀ v ∈ there, v < height) :
    raised there height = height := by
  cases there with
  | none => rfl
  | some v => simp [raised, h v rfl]

theorem below_raise (h : HeightIndex ℚ) (key : HeightKey) (height : ℚ) :
    h.Below (h.raise key height) := by
  intro k v hv
  rw [get?_raise]
  split
  · next hk =>
    rw [← hk, hv]
    exact ⟨_, rfl, le_raised v height⟩
  · exact ⟨v, hv, le_rfl⟩

theorem below_raiseRange (h : HeightIndex ℚ) (lo hi : Int) (lane : Nat) (height : ℚ) :
    h.Below (h.raiseRange lo hi .rightOf lane height) := by
  intro k v hv
  rw [get?_raiseRange, hv]
  split
  · exact ⟨_, rfl, le_raised v height⟩
  · exact ⟨v, rfl, le_rfl⟩

end HeightIndex

namespace Fabric

/-- A gap is between a needle and the place of the loop before. -/
abbrev Between (n : Needle) (place : LoopPlace) (lane : Nat) (k : HeightKey) : Prop :=
  k.IsGap (min n.index place.needle.index) (max n.index place.needle.index) lane

/-- A height clears what yarn of a lane has to clear on its way to a needle from its last loop,
whose tail is at `tail`. -/
structure Clears (f : Fabric ℚ) (lane : Lane) (n : Needle) (place : LoopPlace) (tail h : ℚ) :
    Prop where
  /-- The yarn does not sink. -/
  tail : tail ≤ h
  /-- It is above all that its own lane left in the gaps on the way. -/
  gaps : ∀ k v, Between n place lane.index k → f.heights.get? k = some v → v < h
  /-- It is above the lanes that it crosses at either end. -/
  crossed : ∀ m, m = n ∨ m = place.needle → ∀ c ∈ crossedLanes m lane, ∀ v,
    f.heights.get? ⟨m.index, .corridor, c⟩ = some v → v < h

/-- Yarn arrives at a height that clears its way. -/
theorem clears_arrival {f : Fabric ℚ} (hepsilon : 0 < f.geometry.epsilon) (lane : Lane) (n : Needle)
    (place : LoopPlace) (tail : ℚ) :
    f.Clears lane n place tail (f.arrival lane n place tail) := by
  -- Each of the three lifts starts from the one before, and none goes down.
  let span := f.heights.clearSpan tail (min n.index place.needle.index)
    (max n.index place.needle.index) lane.index f.geometry.epsilon
  let near := f.clearCrossed span n lane
  have hspan : tail ≤ span := HeightIndex.le_clearSpan hepsilon ..
  have hnear : span ≤ near := HeightIndex.le_clearLanes hepsilon ..
  have hfar : near ≤ f.arrival lane n place tail := HeightIndex.le_clearLanes hepsilon ..
  refine ⟨hspan.trans (hnear.trans hfar), ?_, ?_⟩
  · intro k v hk hv
    exact (HeightIndex.lt_clearSpan hepsilon hk hv).trans_le (hnear.trans hfar)
  · rintro m (rfl | rfl) c hc v hv
    · exact (HeightIndex.lt_clearLanes hepsilon hc hv).trans_le hfar
    · exact HeightIndex.lt_clearLanes hepsilon hc hv

/-! ## What a call records -/

theorem heights_place {α : Type} [Scalar α] (f : Fabric α) (direction : Direction) (n : Needle)
    (lane : Lane) (height : α) (head : Option α) (knit : Bool) :
    (f.place direction n lane height head knit).1.heights =
      ((f.reach lane direction n height).1.heights.raise
          (.place n.index .corridor lane.index) (f.reach lane direction n height).2).raise
        (.place n.index (.ofSide n.bed.side) lane.index)
        ((f.reach lane direction n height).1.geometry.headHeight (head.getD height)) := by
  cases knit <;> simp [place, setHeld]

/-- No recorded height sinks. -/
theorem below_apply (f : Fabric ℚ) (op : Operation) : f.heights.Below (f.apply op).heights := by
  cases hop : op.lane? with
  | none =>
    rw [(f.apply_kept hop).1]
    exact .refl _
  | some c =>
    cases op with
    | stitch knit direction n lane =>
      have hreach : f.heights.Below
          (f.reach lane direction n (f.stitchBase knit n)).1.heights := by
        unfold reach
        split
        · exact .refl _
        · exact HeightIndex.below_raiseRange f.heights _ _ _ _
      rw [apply_stitch, heights_place]
      exact (hreach.trans (HeightIndex.below_raise _ _ _)).trans (HeightIndex.below_raise _ _ _)
    | transfer => simp [Operation.lane?] at hop
    | drop => simp [Operation.lane?] at hop

theorem geometry_apply {α : Type} [Scalar α] (f : Fabric α) (op : Operation) :
    (f.apply op).geometry = f.geometry := by
  cases op with
  | stitch knit direction n lane =>
    rw [apply_stitch]
    exact geometry_place ..
  | transfer source target laneCount => exact (f.apply_kept rfl).2
  | drop n => exact (f.apply_kept rfl).2

theorem geometry_run {α : Type} [Scalar α] (g : Geometry α) (ops : List Operation) :
    (run g ops).geometry = g := by
  induction ops using List.reverseRecOn with
  | nil => rfl
  | append_singleton ops op ih => rw [run_concat, geometry_apply, ih]

/-- After a stitch the gaps on the way of its yarn record where that arrived. -/
theorem get?_apply_between {f : Fabric ℚ} (hepsilon : 0 < f.geometry.epsilon) (knit : Bool)
    (direction : Direction) (n : Needle) {lane : Lane} {place : LoopPlace} {tail : ℚ}
    (htail : f.tail? lane.index = some (place, tail)) {k : HeightKey}
    (hk : Between n place lane.index k) :
    (f.apply (.stitch knit direction n lane)).heights.get? k =
      some (f.arrival lane n place tail) := by
  have hgap : k.orientation = .rightOf := hk.1
  have hcorridor : k ≠ .place n.index .corridor lane.index := by
    rintro rfl
    simp [HeightKey.place] at hgap
  have hside : k ≠ .place n.index (.ofSide n.bed.side) lane.index := by
    rintro rfl
    cases hs : n.bed.side <;> simp [hs, HeightKey.place, Orientation.ofSide] at hgap
  have habove : ∀ v ∈ f.heights.get? k, v < f.arrival lane n place tail := fun v hv =>
    (clears_arrival hepsilon lane n place tail).gaps k v hk hv
  rw [apply_stitch, heights_place, HeightIndex.get?_raise, if_neg hside, HeightIndex.get?_raise,
    if_neg hcorridor]
  simp only [reach, htail, leadTo, HeightIndex.get?_raiseRange]
  rw [if_pos hk, HeightIndex.raised_of_above habove]

/-- Only lanes that were stitched with have a height recorded in the corridor. -/
theorem exists_lane_of_corridor {α : Type} [Scalar α] {g : Geometry α} {ops : List Operation}
    {i : Int} {c : Nat} (h : (run g ops).heights.get? ⟨i, .corridor, c⟩ ≠ none) :
    ∃ op ∈ ops, op.lane? = some c := by
  induction ops using List.reverseRecOn with
  | nil => exact absurd rfl h
  | append_singleton ops op ih =>
    rw [run_concat] at h
    by_cases hop : op.lane? = some c
    · exact ⟨op, by simp, hop⟩
    · have hkept : ((run g ops).apply op).heights.get? ⟨i, .corridor, c⟩ =
          (run g ops).heights.get? ⟨i, .corridor, c⟩ := by
        cases op with
        | stitch knit direction n lane =>
          rw [apply_stitch]
          refine get?_heights_place direction n lane _ _ knit ?_
          rintro (⟨place, -, hgap⟩ | hcorridor | hside)
          · simp [HeightKey.IsGap] at hgap
          · simp only [HeightKey.mk.injEq] at hcorridor
            simp [Operation.lane?, hcorridor.2.2] at hop
          · cases hs : n.bed.side <;> simp [hs, Orientation.ofSide] at hside
        | transfer source target laneCount => rw [((run g ops).apply_kept rfl).1]
        | drop n => rw [((run g ops).apply_kept rfl).1]
      obtain ⟨op', hmem, hlane⟩ := ih (hkept ▸ h)
      exact ⟨op', List.mem_append_left _ hmem, hlane⟩

/-! ## Crossings of a gap -/

/-- The height at which yarn of a lane crosses the gap to the right of an index in a call. -/
def crossing? {α : Type} [Scalar α] (f : Fabric α) (c : Nat) (i : Int) : Operation → Option α
  | .stitch _ _ n lane =>
    if lane.index = c then
      (f.tail? c).bind fun (place, tail) =>
        if Between n place c ⟨i, .rightOf, c⟩ then some (f.arrival lane n place tail) else none
    else none
  | _ => none

/-- The heights at which yarn of a lane crosses the gap to the right of an index in a run, in the
order of the calls. -/
def crossings {α : Type} [Scalar α] (f : Fabric α) (c : Nat) (i : Int) : List Operation → List α
  | [] => []
  | op :: ops => (f.crossing? c i op).toList ++ (f.apply op).crossings c i ops

/-- A crossing is above what the gap records, and then is what it records. -/
theorem crossing?_clears {f : Fabric ℚ} (hepsilon : 0 < f.geometry.epsilon) {c : Nat} {i : Int}
    {op : Operation} {h : ℚ} (hcrossing : f.crossing? c i op = some h) :
    (∀ v, f.heights.get? ⟨i, .rightOf, c⟩ = some v → v < h) ∧
      (f.apply op).heights.get? ⟨i, .rightOf, c⟩ = some h := by
  cases op with
  | stitch knit direction n lane =>
    simp only [crossing?] at hcrossing
    split at hcrossing
    · next hlane =>
      subst hlane
      obtain ⟨⟨place, tail⟩, htail, hcrossing⟩ := Option.bind_eq_some_iff.1 hcrossing
      split at hcrossing
      · next hgap =>
        obtain rfl := Option.some.inj hcrossing
        refine ⟨fun v hv => ?_, get?_apply_between hepsilon knit direction n htail hgap⟩
        exact (clears_arrival hepsilon lane n place tail).gaps _ v hgap hv
      · simp at hcrossing
    · simp at hcrossing
  | transfer => simp [crossing?] at hcrossing
  | drop => simp [crossing?] at hcrossing

/-- Every crossing yet to come is above what the gap records. -/
theorem lt_crossings {f : Fabric ℚ} (hepsilon : 0 < f.geometry.epsilon) {c : Nat} {i : Int} {v : ℚ}
    (hv : f.heights.get? ⟨i, .rightOf, c⟩ = some v) (ops : List Operation) :
    ∀ h ∈ f.crossings c i ops, v < h := by
  induction ops generalizing f v with
  | nil => simp [crossings]
  | cons op ops ih =>
    intro h hh
    rcases List.mem_append.1 hh with hh | hh
    · exact (crossing?_clears hepsilon (by simpa using hh)).1 v hv
    · obtain ⟨v', hv', hle⟩ := f.below_apply op _ v hv
      exact hle.trans_lt (ih (by rwa [geometry_apply]) hv' h hh)

/-- Each crossing of a gap is above the crossings before it. -/
theorem pairwise_crossings {f : Fabric ℚ} (hepsilon : 0 < f.geometry.epsilon) (c : Nat) (i : Int)
    (ops : List Operation) : (f.crossings c i ops).Pairwise (· < ·) := by
  induction ops generalizing f with
  | nil => exact .nil
  | cons op ops ih =>
    have hepsilon' : 0 < (f.apply op).geometry.epsilon := by rwa [geometry_apply]
    refine List.pairwise_append.2 ⟨?_, ih hepsilon', ?_⟩
    · cases f.crossing? c i op <;> simp
    · intro v hv h hh
      have hcrossing : f.crossing? c i op = some v := by simpa using hv
      exact lt_crossings hepsilon' (crossing?_clears hepsilon hcrossing).2 ops h hh

/-! ## The run -/

/-- A lane lies between a needle's bed and another lane: one of those above it in front, or below it
at the back. -/
def Crosses (m : Needle) (lane : Lane) (c : Nat) : Prop :=
  match m.bed.side with
  | .front => lane.index < c
  | .back => c < lane.index

/-- The lanes that are crossed at a needle are all those in the way, in front as many as there
are. -/
theorem mem_crossedLanes {m : Needle} {lane : Lane} {c : Nat} (h : Crosses m lane c)
    (hc : c < lane.count) : c ∈ crossedLanes m lane := by
  unfold Crosses at h
  unfold crossedLanes
  cases hside : m.bed.side <;> simp_all

/-- A stitch from a loop of its lane at `place` arrives at height `h`: that is clear of everything
on the way, the yarn from that loop and the new loop meet there, and the gaps on the way record
it. -/
structure ArrivesAt (f f' : Fabric ℚ) (direction : Direction) (n : Needle) (lane : Lane)
    (place : LoopPlace) (tail h : ℚ) : Prop where
  clears : f.Clears lane n place tail h
  meets : ∃ row new start, f.StitchedTo f' direction n lane row new start ∧ start.y = h
  recorded : ∀ k, Between n place lane.index k → f'.heights.get? k = some h

/-- A stitch of a lane that was stitched with before arrives clear of everything on its way, and
leaves its height in the gaps on it. While no lane is beyond the number of lanes, the lanes in its
way are all those above its own in front, and all those below its own at the back. So the crossings
of a gap by one lane are each above all before it. -/
theorem stitches_clear {g : Geometry ℚ} (hepsilon : 0 < g.epsilon) (ops : List Operation) :
    (∀ (knit : Bool) (direction : Direction) (n : Needle) (lane : Lane),
      (∃ op ∈ ops, op.lane? = some lane.index) →
      ∃ place tail h, (run g ops).tail? lane.index = some (place, tail) ∧
        (run g ops).ArrivesAt ((run g ops).apply (.stitch knit direction n lane)) direction n lane
          place tail h) ∧
    (∀ lane : Lane, (∀ op ∈ ops, ∀ c, op.lane? = some c → c < lane.count) →
      ∀ (m : Needle) (c : Nat), Crosses m lane c →
        (run g ops).heights.get? ⟨m.index, .corridor, c⟩ ≠ none → c ∈ crossedLanes m lane) ∧
    ∀ (c : Nat) (i : Int), ((empty g).crossings c i ops).Pairwise (· < ·) := by
  have hf := wellFormed_run g ops
  have hepsilon' : 0 < (run g ops).geometry.epsilon := by rwa [geometry_run]
  refine ⟨?_, ?_, fun c i => pairwise_crossings hepsilon c i ops⟩
  · intro knit direction n lane hstitched
    have htail : (run g ops).tail? lane.index ≠ none := by
      rw [Ne, hf.tail?_eq_none_iff, path?_run_eq_none_iff]
      obtain ⟨op, hop, hlane⟩ := hstitched
      exact fun hnone => hnone op hop hlane
    obtain ⟨⟨place, tail⟩, htail⟩ := Option.ne_none_iff_exists'.1 htail
    refine ⟨place, tail, _, htail, clears_arrival hepsilon' lane n place tail, ?_, ?_⟩
    · -- Where the yarn arrives is where the new loop starts.
      obtain ⟨start, hstitched⟩ := stitchedTo_place hf (tracks_ledger g ops) direction n lane
        ((run g ops).stitchBase knit n) ((run g ops).stitchHead? knit n) knit
      obtain ⟨q, hq, -, hy⟩ := (run g ops).head?_stitchLoop lane direction n
        ((run g ops).stitchBase knit n) ((run g ops).stitchHead? knit n)
      obtain rfl := Option.some.inj (hq.symm.trans hstitched.starts)
      rw [apply_stitch]
      refine ⟨_, _, q, hstitched, hy.trans ?_⟩
      simp [seam, reach, htail]
    · intro k hk
      exact get?_apply_between hepsilon' knit direction n htail hk
  · intro lane hlanes m c hcrosses hrecorded
    obtain ⟨op, hop, hlane⟩ := exists_lane_of_corridor hrecorded
    exact mem_crossedLanes hcrosses (hlanes op hop c hlane)

/-- Yarn that goes from one needle to another and back crosses the gap between them higher on its
way back. -/
theorem stitches_clear_there_and_back :
    let there : List Operation :=
      [.stitch true .right (.front 0) ⟨0, 2⟩, .stitch true .right (.front 1) ⟨0, 2⟩]
    let back : Operation := .stitch true .left (.front 0) ⟨0, 2⟩
    let f : Fabric ℚ := run .standard there
    (∃ place tail h, f.tail? 0 = some (place, tail) ∧
        f.ArrivesAt (f.apply back) .left (.front 0) ⟨0, 2⟩ place tail h) ∧
      ∃ h h', (empty (.standard : Geometry ℚ)).crossings 0 0 (there ++ [back]) = [h, h'] ∧
        h < h' := by
  intro there back f
  have hepsilon : 0 < (.standard : Geometry ℚ).epsilon := by decide +kernel
  obtain ⟨hstitch, -, -⟩ := stitches_clear hepsilon there
  obtain ⟨-, -, hcrossings⟩ := stitches_clear hepsilon (there ++ [back])
  refine ⟨hstitch true .left (.front 0) ⟨0, 2⟩ ⟨_, List.mem_cons_self, rfl⟩, ?_⟩
  have hpairwise := hcrossings 0 0
  have hlength : ((empty (.standard : Geometry ℚ)).crossings 0 0 (there ++ [back])).length = 2 := by
    decide +kernel
  obtain ⟨h, h', hcrosses⟩ := List.length_eq_two.1 hlength
  rw [hcrosses] at hpairwise
  exact ⟨h, h', hcrosses, by simpa using hpairwise⟩

end Fabric

end Knitting
