import Knitting.Fabric
import Mathlib.Data.List.Basic

set_option autoImplicit false

/-! # What each call does to the fabric

A run is a list of calls on the fabric without yarn. Every proof about runs goes through what one
call leaves of the record of held rows (`heldAt`), of the paths (`YarnStore.path?`) and of the loops
that a row has at a needle (`rowLoops`). A stitch does to them what `place` does, and a transfer is
a sequence of `moveRow`, one for each row that is held. -/

namespace Knitting

/-- A call on the fabric. -/
inductive Operation where
  /-- A stitch: a knit, or else a tuck. -/
  | stitch (knit : Bool) (direction : Direction) (needle : Needle) (lane : Lane)
  | transfer (source target : Needle) (laneCount : Nat)
  | drop (needle : Needle)
  deriving DecidableEq, Repr

/-- The lane that a call stitches with. -/
def Operation.lane? : Operation → Option Nat
  | .stitch _ _ _ lane => some lane.index
  | .transfer _ _ _ => none
  | .drop _ => none

namespace Fabric

variable {α : Type}

/-! ## The record of held rows -/

theorem heldAt_setHeld (f : Fabric α) (n m : Needle) (h : Held) :
    (f.setHeld n h).heldAt m = if m = n then [h] else f.heldAt m := by
  simp only [heldAt, setHeld, NeedleTable.at?_put]
  split <;> rfl

theorem heldAt_clearHeld (f : Fabric α) (n m : Needle) :
    (f.clearHeld n).heldAt m = if m = n then [] else f.heldAt m := by
  simp only [heldAt, clearHeld, NeedleTable.at?_remove]
  split <;> rfl

theorem held_addHeld (f : Fabric α) (n : Needle) (h : Held) :
    (f.addHeld n h).held =
      if h ∈ f.heldAt n then f.held else f.held.put n (f.heldAt n ++ [h]) := by
  unfold addHeld
  by_cases hmem : h ∈ f.heldAt n
  · rw [if_pos (List.contains_iff_mem.2 hmem), if_pos hmem]
  · rw [if_neg (fun hc => hmem (List.contains_iff_mem.1 hc)), if_neg hmem]

theorem heldAt_addHeld (f : Fabric α) (n m : Needle) (h : Held) :
    (f.addHeld n h).heldAt m =
      if m = n then if h ∈ f.heldAt n then f.heldAt n else f.heldAt n ++ [h] else f.heldAt m := by
  rw [heldAt, held_addHeld]
  by_cases hmem : h ∈ f.heldAt n
  · rw [if_pos hmem, if_pos hmem]
    split
    · next hm => rw [hm, heldAt]
    · rfl
  · rw [if_neg hmem, if_neg hmem, NeedleTable.at?_put]
    split <;> rfl

@[simp] theorem store_setHeld (f : Fabric α) (n : Needle) (h : Held) :
    (f.setHeld n h).store = f.store := rfl

@[simp] theorem store_clearHeld (f : Fabric α) (n : Needle) : (f.clearHeld n).store = f.store := rfl

@[simp] theorem store_addHeld (f : Fabric α) (n : Needle) (h : Held) :
    (f.addHeld n h).store = f.store := by
  unfold addHeld
  split <;> rfl

@[simp] theorem heights_addHeld (f : Fabric α) (n : Needle) (h : Held) :
    (f.addHeld n h).heights = f.heights := by
  unfold addHeld
  split <;> rfl

@[simp] theorem geometry_addHeld (f : Fabric α) (n : Needle) (h : Held) :
    (f.addHeld n h).geometry = f.geometry := by
  unfold addHeld
  split <;> rfl

/-! ## The loops of a row -/

theorem rowLoops_eq (f : Fabric α) (h : Held) (n : Needle) :
    f.rowLoops h n = (f.store.path h.lane).loopsOn h.row n := by
  rw [rowLoops, YarnStore.row?_eq_getElem?, YarnPath.loopsOn]
  cases (f.store.path h.lane).rows[h.row]? <;> rfl

theorem rowLoops_congr {f g : Fabric α} (h : f.store = g.store) (k : Held) (n : Needle) :
    f.rowLoops k n = g.rowLoops k n := by
  rw [rowLoops_eq, rowLoops_eq, h]

/-- The row of a loop exists. -/
theorem exists_row_of_rowLoops {f : Fabric α} {h : Held} {n : Needle} (hne : f.rowLoops h n ≠ []) :
    ∃ row, (f.store.path h.lane).rows[h.row]? = some row ∧ row.loopsOn n = f.rowLoops h n := by
  rw [rowLoops_eq, YarnPath.loopsOn] at hne
  rw [rowLoops_eq, YarnPath.loopsOn]
  cases hrow : (f.store.path h.lane).rows[h.row]? with
  | none => simp [hrow] at hne
  | some row => exact ⟨row, rfl, by simp⟩

variable [Scalar α]

/-! ## Stitches -/

/-- Where the yarn of a stitch arrives: the place along the needles, and the height. -/
def seam (f : Fabric α) (lane : Lane) (direction : Direction) (n : Needle) (height : α) : α × α :=
  (f.geometry.boxStart direction n.index + f.geometry.laneOffset direction lane,
    (f.reach lane direction n height).2)

/-- The loop that a stitch makes. -/
def stitchLoop (f : Fabric α) (lane : Lane) (direction : Direction) (n : Needle) (height : α)
    (head : Option α) : Loop α :=
  ⟨outline f.geometry ⟨direction, n, lane, height, (f.reach lane direction n height).2⟩ head,
    lane.index, direction⟩

/-- The row that a stitch belongs to, as a needle would hold it. -/
def stitchRow (f : Fabric α) (lane : Lane) (direction : Direction) (n : Needle) (knit : Bool) :
    Held :=
  ⟨lane.index, (f.store.path lane.index).nextRow direction n knit⟩

/-- The path of a lane with its last loop led to a stitch. -/
def leadPath (f : Fabric α) (lane : Lane) (direction : Direction) (n : Needle) (height : α) :
    YarnPath α :=
  let s := f.seam lane direction n height
  (f.store.path lane.index).modifyLastLoop fun l => l.endAt s.1 s.2

/-- Reaching for a stitch leads the last loop of its lane to it. The hypothesis says that the lane
has a tail as soon as it has a last loop. -/
theorem path_reach {f : Fabric α} {lane : Lane}
    (htail : f.tail? lane.index = none → (f.store.path lane.index).last = none)
    (direction : Direction) (n : Needle) (height : α) :
    (f.reach lane direction n height).1.store.path lane.index =
      f.leadPath lane direction n height := by
  unfold leadPath seam reach
  cases h : f.tail? lane.index with
  | none => simp only [YarnPath.modifyLastLoop, htail h]
  | some t => simp only [leadTo, YarnStore.path_modifyPath, if_true]

theorem path?_reach_of_ne (f : Fabric α) {lane : Lane} (direction : Direction) (n : Needle)
    (height : α) {c : Nat} (hc : c ≠ lane.index) :
    (f.reach lane direction n height).1.store.path? c = f.store.path? c := by
  unfold reach
  split
  · rfl
  · simp [leadTo, YarnStore.path?_modifyPath, hc]

theorem held_reach (f : Fabric α) (lane : Lane) (direction : Direction) (n : Needle) (height : α) :
    (f.reach lane direction n height).1.held = f.held := by
  unfold reach
  split <;> rfl

/-- What a stitch leaves of the paths: that of its lane, led to it, with the new loop. -/
theorem path?_place {f : Fabric α} {lane : Lane}
    (htail : f.tail? lane.index = none → (f.store.path lane.index).last = none)
    (direction : Direction) (n : Needle) (height : α) (head : Option α) (knit : Bool) (c : Nat) :
    (f.place direction n lane height head knit).1.store.path? c =
      if c = lane.index then
        some ((f.leadPath lane direction n height).addLoop (f.stitchRow lane direction n knit).row
          n knit (f.stitchLoop lane direction n height head))
      else f.store.path? c := by
  -- `reach` changes no size, so the loop is drawn as on the fabric before it.
  have hgeometry : (f.reach lane direction n height).1.geometry = f.geometry := by
    unfold reach
    split <;> rfl
  have hstore : (f.place direction n lane height head knit).1.store =
      (f.reach lane direction n height).1.store.modifyPath lane.index fun p =>
        p.addLoop (f.stitchRow lane direction n knit).row n knit
          (f.stitchLoop lane direction n height head) := by
    unfold place stitchLoop
    rw [← hgeometry]
    cases knit
    · simp only [Bool.false_eq_true, if_false, store_addHeld]
      rfl
    · rfl
  rw [hstore, YarnStore.path?_modifyPath, path_reach htail]
  split
  · rfl
  · next hc => exact path?_reach_of_ne f direction n height hc

/-- What a stitch leaves of the record: its needle holds its row, after a knit nothing else. -/
theorem held_place (f : Fabric α) (direction : Direction) (n : Needle) (lane : Lane) (height : α)
    (head : Option α) (knit : Bool) :
    (f.place direction n lane height head knit).1.held =
      (if knit then f.setHeld n (f.stitchRow lane direction n knit)
        else f.addHeld n (f.stitchRow lane direction n knit)).held := by
  cases knit
  · simp only [Bool.false_eq_true, if_false, place, held_addHeld, heldAt, held_reach]
    rfl
  · simp only [if_true, setHeld, ← held_reach f lane direction n height]
    rfl

theorem heldAt_place (f : Fabric α) (direction : Direction) (n m : Needle) (lane : Lane)
    (height : α) (head : Option α) (knit : Bool) :
    let h := f.stitchRow lane direction n knit
    (f.place direction n lane height head knit).1.heldAt m =
      if m = n then
        if knit then [h] else if h ∈ f.heldAt n then f.heldAt n else f.heldAt n ++ [h]
      else f.heldAt m := by
  have hat : ∀ g : Fabric α, (f.place direction n lane height head knit).1.held = g.held →
      (f.place direction n lane height head knit).1.heldAt m = g.heldAt m := fun g h => by
    rw [heldAt, heldAt, h]
  dsimp only
  cases knit
  · rw [hat (f.addHeld n _) (held_place ..), heldAt_addHeld]
    rfl
  · rw [hat (f.setHeld n _) (held_place ..), heldAt_setHeld]
    rfl

theorem path_place {f : Fabric α} {lane : Lane}
    (htail : f.tail? lane.index = none → (f.store.path lane.index).last = none)
    (direction : Direction) (n : Needle) (height : α) (head : Option α) (knit : Bool) (c : Nat) :
    (f.place direction n lane height head knit).1.store.path c =
      if c = lane.index then
        (f.leadPath lane direction n height).addLoop (f.stitchRow lane direction n knit).row
          n knit (f.stitchLoop lane direction n height head)
      else f.store.path c := by
  rw [YarnStore.path, path?_place htail]
  split <;> rfl

/-- Leading the last loop of a path to a stitch opens no row. -/
theorem length_leadPath (f : Fabric α) (lane : Lane) (direction : Direction) (n : Needle)
    (height : α) :
    (f.leadPath lane direction n height).rows.length = (f.store.path lane.index).rows.length :=
  YarnPath.length_modifyLastLoop ..

theorem stitchRow_le_length (f : Fabric α) (lane : Lane) (direction : Direction) (n : Needle)
    (knit : Bool) (height : α) :
    (f.stitchRow lane direction n knit).row ≤
      (f.leadPath lane direction n height).rows.length := by
  rw [length_leadPath]
  exact YarnPath.nextRow_le_length ..

/-- What a stitch leaves of the loops of each row: those of its lane's path led to it, and behind
them the new loop. -/
theorem rowLoops_place {f : Fabric α} {lane : Lane}
    (htail : f.tail? lane.index = none → (f.store.path lane.index).last = none)
    (direction : Direction) (n m : Needle) (height : α) (head : Option α) (knit : Bool)
    (k : Held) :
    (f.place direction n lane height head knit).1.rowLoops k m =
      if k = f.stitchRow lane direction n knit ∧ m = n then
        (if knit then [] else (f.leadPath lane direction n height).loopsOn k.row n) ++
          [f.stitchLoop lane direction n height head]
      else if k.lane = lane.index then (f.leadPath lane direction n height).loopsOn k.row m
      else f.rowLoops k m := by
  have hle := f.stitchRow_le_length lane direction n knit height
  rw [rowLoops_eq, path_place htail]
  have hk : k = f.stitchRow lane direction n knit ↔
      k.lane = lane.index ∧ k.row = (f.stitchRow lane direction n knit).row := Held.ext_iff
  simp only [hk]
  by_cases hc : k.lane = lane.index
  · -- Of the rows of the lane only that of the stitch gains a loop, and at its needle only.
    rw [if_pos hc, YarnPath.loopsOn_addLoop hle]
    by_cases hplace : k.row = (f.stitchRow lane direction n knit).row ∧ m = n
    · have hat : (k.lane = lane.index ∧ k.row = (f.stitchRow lane direction n knit).row) ∧
          m = n := ⟨⟨hc, hplace.1⟩, hplace.2⟩
      rw [if_pos hplace, if_pos hat, hplace.1]
      cases knit <;> rfl
    · rw [if_neg hplace, if_neg fun h => hplace ⟨h.1.2, h.2⟩, if_pos hc]
  · rw [if_neg hc, if_neg fun h => hc h.1.1, if_neg hc, rowLoops_eq]

/-! ## Moves -/

/-- The loops that a move puts at its target. -/
def movedLoops (f : Fabric α) (source target : Needle) (laneCount : Nat) (height : α) (h : Held) :
    List (Loop α) :=
  (f.rowLoops h source).map fun l =>
    match f.rowLoops h source with
    | [] => l
    | first :: _ => l.withHead (f.transferHead first target laneCount height)

/-- What a move leaves of the paths: that of its lane, with the loops taken from the source and put
at the target. -/
theorem path?_moveRow {f : Fabric α} {source : Needle} {h : Held}
    (hne : f.rowLoops h source ≠ []) (target : Needle) (laneCount : Nat) (height : α) :
    ∃ direction, ∀ c,
      (f.moveRow source target laneCount height h).1.store.path? c =
        if c = h.lane then
          some (((f.store.path h.lane).modifyRow h.row fun row => row.clear source).land h.row
            source target direction (f.movedLoops source target laneCount height h))
        else f.store.path? c := by
  obtain ⟨row, hrow, hloops⟩ := exists_row_of_rowLoops hne
  have hsome : f.store.row? h.lane h.row = some row := by
    rw [YarnStore.row?_eq_getElem?, hrow]
  have hslot : (f.store.row? h.lane h.row).bind (·.slot? source) = some (f.rowLoops h source) := by
    rw [hsome, Option.bind_some, Row.slot?_eq_some_of_loopsOn (hloops ▸ hne), hloops]
  cases hl : f.rowLoops h source with
  | nil => exact absurd hl hne
  | cons first rest =>
    -- A row that is missing would be opened in the direction of the first loop.
    refine ⟨first.direction, ?_⟩
    intro c
    have hcleared : ∀ c, (f.store.modifyRow h.lane h.row fun r => r.clear source).path? c =
        if c = h.lane then some ((f.store.path h.lane).modifyRow h.row fun r => r.clear source)
        else f.store.path? c := by
      intro c
      rw [YarnStore.path?_modifyRow, hsome]
      simp
    have hpath : (f.store.modifyRow h.lane h.row fun r => r.clear source).path h.lane =
        (f.store.path h.lane).modifyRow h.row fun r => r.clear source := by
      rw [YarnStore.path, hcleared, if_pos rfl, Option.getD_some]
    simp only [moveRow, hslot, hl, store_addHeld, YarnStore.path?_modifyPath, hpath, movedLoops]
    split
    · rfl
    · next hc => rw [hcleared, if_neg hc]

theorem path_moveRow {f : Fabric α} {source : Needle} {h : Held}
    (hne : f.rowLoops h source ≠ []) (target : Needle) (laneCount : Nat) (height : α) :
    ∃ direction, ∀ c,
      (f.moveRow source target laneCount height h).1.store.path c =
        if c = h.lane then
          ((f.store.path h.lane).modifyRow h.row fun row => row.clear source).land h.row
            source target direction (f.movedLoops source target laneCount height h)
        else f.store.path c := by
  obtain ⟨direction, hpath⟩ := path?_moveRow hne target laneCount height
  refine ⟨direction, ?_⟩
  intro c
  rw [YarnStore.path, hpath]
  split <;> rfl

/-- What a move leaves of the loops of each row. -/
theorem rowLoops_moveRow {f : Fabric α} {source : Needle} {h : Held}
    (hne : f.rowLoops h source ≠ []) (target m : Needle) (laneCount : Nat) (height : α)
    (k : Held) :
    (f.moveRow source target laneCount height h).1.rowLoops k m =
      if k = h ∧ m = target then
        (if source = target then [] else f.rowLoops h target) ++
          f.movedLoops source target laneCount height h
      else if k = h ∧ m = source then []
      else f.rowLoops k m := by
  obtain ⟨row, hrow, -⟩ := exists_row_of_rowLoops hne
  obtain ⟨direction, hpath⟩ := path_moveRow hne target laneCount height
  have hlen : h.row ≤
      ((f.store.path h.lane).modifyRow h.row fun row => row.clear source).rows.length := by
    rw [YarnPath.length_modifyRow]
    exact Nat.le_of_lt (List.getElem?_eq_some_iff.1 hrow).1
  rw [rowLoops_eq, hpath]
  simp only [Held.ext_iff]
  by_cases hc : k.lane = h.lane
  · simp only [hc, if_true, YarnPath.loopsOn_land hlen, YarnPath.loopsOn_clear, true_and,
      rowLoops_eq, eq_comm (a := target)]
  · simp only [hc, if_false, false_and, rowLoops_eq]

theorem held_moveRow {f : Fabric α} {source : Needle} {h : Held} (hne : f.rowLoops h source ≠ [])
    (target : Needle) (laneCount : Nat) (height : α) :
    (f.moveRow source target laneCount height h).1.held = (f.addHeld target h).held := by
  obtain ⟨row, hrow, hloops⟩ := exists_row_of_rowLoops hne
  have hslot : (f.store.row? h.lane h.row).bind (·.slot? source) = some (f.rowLoops h source) := by
    rw [YarnStore.row?_eq_getElem?, hrow, Option.bind_some,
      Row.slot?_eq_some_of_loopsOn (hloops ▸ hne), hloops]
  cases hl : f.rowLoops h source with
  | nil => exact absurd hl hne
  | cons first rest =>
    simp only [moveRow, hslot, hl, held_addHeld, heldAt]
    rfl

theorem heldAt_moveRow {f : Fabric α} {source : Needle} {h : Held}
    (hne : f.rowLoops h source ≠ []) (target m : Needle) (laneCount : Nat) (height : α) :
    (f.moveRow source target laneCount height h).1.heldAt m =
      if m = target then if h ∈ f.heldAt target then f.heldAt target else f.heldAt target ++ [h]
      else f.heldAt m := by
  rw [heldAt, held_moveRow hne, ← heldAt_addHeld]
  rfl

/-- A move changes neither the recorded heights nor the sizes. -/
theorem moveRow_kept (f : Fabric α) (source target : Needle) (laneCount : Nat) (height : α)
    (h : Held) :
    (f.moveRow source target laneCount height h).1.heights = f.heights ∧
      (f.moveRow source target laneCount height h).1.geometry = f.geometry := by
  unfold moveRow
  split
  · exact ⟨rfl, rfl⟩
  · split
    · exact ⟨rfl, rfl⟩
    · simp

/-- Moves the loops of several rows, one row after the other. -/
def moveRows (f : Fabric α) (source target : Needle) (laneCount : Nat) (height : α)
    (rows : List Held) : Fabric α :=
  rows.foldl (fun f h => (f.moveRow source target laneCount height h).1) f

theorem moveRows_kept (f : Fabric α) (source target : Needle) (laneCount : Nat) (height : α)
    (rows : List Held) :
    (f.moveRows source target laneCount height rows).heights = f.heights ∧
      (f.moveRows source target laneCount height rows).geometry = f.geometry := by
  induction rows generalizing f with
  | nil => exact ⟨rfl, rfl⟩
  | cons h rows ih =>
    obtain ⟨hheights, hgeometry⟩ := ih (f.moveRow source target laneCount height h).1
    obtain ⟨hheights', hgeometry'⟩ := f.moveRow_kept source target laneCount height h
    exact ⟨hheights.trans hheights', hgeometry.trans hgeometry'⟩

/-! ## Calls -/

/-- The fabric after a call; one that was refused with a warning leaves it as it was. -/
def apply (f : Fabric α) : Operation → Fabric α
  | .stitch true direction n lane => (f.knit direction n lane).1
  | .stitch false direction n lane => (f.tuck direction n lane).1
  | .transfer source target laneCount =>
    match f.transfer source target laneCount with
    | .ok (g, _) => g
    | .error _ => f
  | .drop n =>
    match f.drop n with
    | .ok (g, _) => g
    | .error _ => f

/-- The fabric after a run of calls on the fabric without yarn. -/
def run (g : Geometry α) (ops : List Operation) : Fabric α := ops.foldl apply (.empty g)

@[simp] theorem run_nil (g : Geometry α) : run g [] = .empty g := rfl

@[simp] theorem run_concat (g : Geometry α) (ops : List Operation) (op : Operation) :
    run g (ops ++ [op]) = (run g ops).apply op := by
  simp [run]

/-- The height of the base of a stitch. -/
def stitchBase (f : Fabric α) (knit : Bool) (n : Needle) : α :=
  match knit, f.baseHeight? n with
  | true, some h => h + f.geometry.boxSpacing
  | false, some h => h
  | _, none => f.neighbourHeight n

/-- The height of the head of a stitch, if it is drawn at one of its own. -/
def stitchHead? (f : Fabric α) (knit : Bool) (n : Needle) : Option α :=
  if knit && Scalar.lt (f.stitchBase knit n) (f.neighbourHeight n) then some (f.neighbourHeight n)
  else none

/-- A stitch places a loop. -/
theorem apply_stitch (f : Fabric α) (knit : Bool) (direction : Direction) (n : Needle)
    (lane : Lane) :
    f.apply (.stitch knit direction n lane) =
      (f.place direction n lane (f.stitchBase knit n) (f.stitchHead? knit n) knit).1 := by
  cases knit
  · simp only [apply, tuck, stitchHead?, stitchBase, Bool.false_and, Bool.false_eq_true, if_false]
    cases f.baseHeight? n <;> rfl
  · simp only [apply, Fabric.knit, stitchHead?, stitchBase, Bool.true_and]
    cases f.baseHeight? n <;> rfl

/-- A transfer from a needle without loops is refused, any other moves the rows that the needle
holds one after the other. -/
theorem apply_transfer (f : Fabric α) (source target : Needle) (laneCount : Nat) :
    (f.baseHeight? source = none ∧ f.apply (.transfer source target laneCount) = f) ∨
      ∃ height, f.apply (.transfer source target laneCount) =
        (f.clearHeld source).moveRows source target laneCount height (f.heldAt source) := by
  cases h : f.baseHeight? source with
  | none => exact .inl ⟨rfl, by simp [apply, transfer, h]⟩
  | some base =>
    refine .inr ⟨(f.baseHeight? target).getD base, ?_⟩
    simp only [apply, transfer, h, moveRows]
    -- Without the events the two folds are the same.
    exact (List.foldl_hom Prod.fst fun _ _ => rfl).symm

/-- A drop from a needle that holds nothing is refused, any other clears the needle. -/
theorem apply_drop (f : Fabric α) (n : Needle) :
    (f.heldAt n = [] ∧ f.apply (.drop n) = f) ∨ f.apply (.drop n) = f.clearHeld n := by
  cases h : f.heldAt n with
  | nil => exact .inl ⟨rfl, by simp [apply, drop, h]⟩
  | cons k rest => exact .inr (by simp [apply, drop, h])

/-- Only a stitch changes the recorded heights, and none changes the sizes. -/
theorem apply_kept (f : Fabric α) {op : Operation} (hop : op.lane? = none) :
    (f.apply op).heights = f.heights ∧ (f.apply op).geometry = f.geometry := by
  cases op with
  | stitch => simp [Operation.lane?] at hop
  | transfer source target laneCount =>
    rcases f.apply_transfer source target laneCount with ⟨-, h⟩ | ⟨height, h⟩
    · simp [h]
    · rw [h]
      exact moveRows_kept (f.clearHeld source) ..
  | drop n =>
    rcases f.apply_drop n with ⟨-, h⟩ | h
    · simp [h]
    · rw [h]
      exact ⟨rfl, rfl⟩

end Fabric

end Knitting
