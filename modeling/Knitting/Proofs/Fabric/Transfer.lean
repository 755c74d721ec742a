import Knitting.Proofs.Fabric.Ledger
import Knitting.Proofs.Fabric.Occupied

set_option autoImplicit false

/-! # What a transfer leaves

A transfer is a sequence of moves, one for each row that its source lists. Each of them changes the
loops of its own row only, so the whole can be told from the fabric before (`TransferredTo`): which
rows are listed, which loops they have, and where the last loops are. A transfer to a free needle
can be undone by another one back (`transfer_there_and_back`). -/

namespace Knitting

variable {α : Type}

/-- Where the last loop of a lane is after some rows left a needle for another. -/
def LoopPlace.relocate (c : Nat) (rows : List Held) (source target : Needle) (place : LoopPlace) :
    LoopPlace :=
  if ⟨c, place.row⟩ ∈ rows ∧ place.needle = source then ⟨place.row, target⟩ else place

/-- What happens to the frame of the path of a lane when some rows leave a needle for another. -/
def relocateFrame (c : Nat) (rows : List Held) (source target : Needle)
    (frame : List Direction × Option LoopPlace) : List Direction × Option LoopPlace :=
  (frame.1, frame.2.map (LoopPlace.relocate c rows source target))

/-- Rows of other lanes take no last loop along. -/
theorem relocateFrame_eq_id {c : Nat} {rows : List Held} (h : ∀ k ∈ rows, k.lane ≠ c)
    (source target : Needle) : relocateFrame c rows source target = id := by
  funext frame
  have hplace : LoopPlace.relocate c rows source target = id := by
    funext place
    have hrow : (⟨c, place.row⟩ : Held) ∉ rows := fun hmem => h _ hmem rfl
    simp [LoopPlace.relocate, hrow]
  simp [relocateFrame, hplace]

theorem map_direction_modify {rows : List (Row α)} {i : Nat} {f : Row α → Row α}
    (hf : ∀ r, (f r).direction = r.direction) :
    (rows.modify i f).map (·.direction) = rows.map (·.direction) := by
  refine List.ext_getElem? ?_
  intro j
  simp only [List.getElem?_map, List.getElem?_modify]
  cases rows[j]? with
  | none => rfl
  | some r => by_cases hij : i = j <;> simp [hij, hf]

theorem YarnPath.frame_land {p : YarnPath α} {i : Nat} (hi : i < p.rows.length) (c : Nat)
    (source target : Needle) (direction : Direction) (loops : List (Loop α)) :
    ((p.modifyRow i fun row => row.clear source).land i source target direction loops).frame =
      relocateFrame c [⟨c, i⟩] source target p.frame := by
  have hnone : i + 1 - p.rows.length = 0 := by omega
  refine Prod.ext ?_ ?_
  · simp only [frame, land, openRow, modifyRow, List.length_modify, hnone, List.replicate_zero,
      List.append_nil, relocateFrame]
    rw [map_direction_modify fun r => Row.direction_extend r target loops,
      map_direction_modify fun r => Row.direction_clear r source]
  · refine congrFun (congrArg Option.map (funext ?_)) p.last
    rintro ⟨row, needle⟩
    by_cases hrow : row = i
    · simp [LoopPlace.relocate, hrow]
    · simp [LoopPlace.relocate, hrow]

namespace Fabric

/-- What a row keeps at a needle. -/
def slot? (f : Fabric α) (k : Held) (m : Needle) : Option (List (Loop α)) :=
  (f.store.row? k.lane k.row).bind fun row => row.slot? m

theorem WellFormed.slot?_eq {f : Fabric α} (hf : f.WellFormed) (k : Held) (m : Needle) :
    f.slot? k m = if f.rowLoops k m = [] then none else some (f.rowLoops k m) := by
  rw [rowLoops_eq, slot?, YarnStore.row?_eq_getElem?, YarnPath.loopsOn]
  cases hrow : (f.store.path k.lane).rows[k.row]? with
  | none => rfl
  | some row => exact ((hf.rows k.lane) k.row row hrow).toTidy.slot?_eq m

/-- A last loop that went along comes back, and none comes along that had been at the target. -/
theorem relocateFrame_back {f : Fabric α} (hf : f.WellFormed) {source target : Needle}
    (hne : source ≠ target) (hfree : ∀ k ∈ f.heldAt source, f.rowLoops k target = []) (c : Nat) :
    (f.frame? c).map (relocateFrame c (f.heldAt source) target source ∘
      relocateFrame c (f.heldAt source) source target) = f.frame? c := by
  cases hp : f.store.path? c with
  | none => simp [frame?, hp]
  | some p =>
    obtain ⟨⟨row, needle⟩, hlast, hloops⟩ := (hf.paths c p hp).last
    have hplace : needle = target → (⟨c, row⟩ : Held) ∉ f.heldAt source := by
      rintro rfl hk
      have hnone := hfree _ hk
      rw [rowLoops_eq, YarnStore.path, hp, Option.getD_some] at hnone
      exact hloops hnone
    have hback : (LoopPlace.relocate c (f.heldAt source) source target ⟨row, needle⟩).relocate c
        (f.heldAt source) target source = ⟨row, needle⟩ := by
      unfold LoopPlace.relocate
      by_cases hk : (⟨c, row⟩ : Held) ∈ f.heldAt source
      · have htarget : needle ≠ target := fun h => hplace h hk
        by_cases hsource : needle = source
        · simp [hk, hsource]
        · simp [hk, hsource, htarget]
      · simp [hk]
    simp [frame?, hp, YarnPath.frame, relocateFrame, hlast, hback]

variable [Scalar α]

/-! ## One move -/

theorem frame?_moveRow {f : Fabric α} {source : Needle} {h : Held} (hne : f.rowLoops h source ≠ [])
    (target : Needle) (laneCount : Nat) (height : α) (c : Nat) :
    (f.moveRow source target laneCount height h).1.frame? c =
      (f.frame? c).map (relocateFrame c [h] source target) := by
  obtain ⟨row, hrow, -⟩ := exists_row_of_rowLoops hne
  obtain ⟨direction, hpath⟩ := path?_moveRow hne target laneCount height
  have hlt : h.row < (f.store.path h.lane).rows.length := (List.getElem?_eq_some_iff.1 hrow).1
  simp only [frame?, hpath]
  by_cases hc : c = h.lane
  · subst hc
    -- A path with a row is there.
    have hsome : f.store.path? h.lane = some (f.store.path h.lane) := by
      unfold YarnStore.path at hlt ⊢
      cases hp : f.store.path? h.lane with
      | none => simp [hp, YarnPath.empty] at hlt
      | some p => rfl
    rw [if_pos rfl, hsome]
    exact congrArg some (YarnPath.frame_land hlt h.lane source target direction _)
  · have hlane : ∀ k ∈ [h], k.lane ≠ c := by simpa using Ne.symm hc
    rw [if_neg hc, relocateFrame_eq_id hlane, Option.map_id]
    rfl

/-- What a move does to a row depends on the sizes and on the loops of the row alone. -/
theorem movedLoops_congr {f g : Fabric α} (hgeometry : f.geometry = g.geometry) {source : Needle}
    {h : Held} (hloops : f.rowLoops h source = g.rowLoops h source) (target : Needle)
    (laneCount : Nat) (height : α) :
    f.movedLoops source target laneCount height h =
      g.movedLoops source target laneCount height h := by
  simp only [movedLoops, transferHead, hgeometry, hloops]

/-- What a move reports. -/
def movedEvent (f : Fabric α) (source target : Needle) (h : Held) : Event :=
  .moved (f.rowLoops h source).length h.lane h.row source target

theorem events_moveRow {f : Fabric α} {source : Needle} {h : Held} (hne : f.rowLoops h source ≠ [])
    (target : Needle) (laneCount : Nat) (height : α) :
    (f.moveRow source target laneCount height h).2 = [f.movedEvent source target h] := by
  unfold moveRow movedEvent
  unfold rowLoops at hne ⊢
  cases hslot : (f.store.row? h.lane h.row).bind (·.slot? source) with
  | none => simp [hslot] at hne
  | some loops =>
    cases loops with
    | nil => simp [hslot] at hne
    | cons first rest => rfl

/-! ## The moves of a transfer -/

section Rows

variable {f : Fabric α} {source : Needle} {rows : List Held}

/-- The loops of the pending rows are still at the source. -/
theorem Transit.rowLoops_moveRow_source {h : Held} (hf : f.Transit source (h :: rows))
    (target : Needle) (laneCount : Nat) (height : α) {k : Held} (hk : k ∈ rows) (m : Needle) :
    (f.moveRow source target laneCount height h).1.rowLoops k m = f.rowLoops k m := by
  have hne : k ≠ h := fun heq => (List.nodup_cons.1 hf.nodup).1 (heq ▸ hk)
  rw [rowLoops_moveRow (hf.pending h List.mem_cons_self).2, if_neg fun hk => hne hk.1,
    if_neg fun hk => hne hk.1]

/-- The moves put the loops of each row at the target, behind those that the row has there, and
leave nothing at the source. -/
theorem Transit.rowLoops_moveRows (hf : f.Transit source rows) (target : Needle) (laneCount : Nat)
    (height : α) (k : Held) (m : Needle) :
    (f.moveRows source target laneCount height rows).rowLoops k m =
      if k ∈ rows ∧ m = target then
        (if source = target then [] else f.rowLoops k target) ++
          f.movedLoops source target laneCount height k
      else if k ∈ rows ∧ m = source then [] else f.rowLoops k m := by
  induction rows generalizing f with
  | nil => simp [Fabric.moveRows]
  | cons h rows ih =>
    have hne := (hf.pending h List.mem_cons_self).2
    refine (ih (hf.moveRow target laneCount height)).trans ?_
    by_cases hk : k ∈ rows
    · -- A row that moves later is as it was.
      have hkept := fun m => hf.rowLoops_moveRow_source target laneCount height hk m
      rw [movedLoops_congr (f.moveRow_kept source target laneCount height h).2 (hkept source)]
      simp only [hk, hkept, List.mem_cons, or_true, true_and]
    · simp only [hk, List.mem_cons, or_false, false_and, if_false]
      rw [rowLoops_moveRow hne]
      by_cases hkh : k = h
      · simp [hkh]
      · simp [hkh]

/-- The moves list the rows at the target, behind those that it lists. -/
theorem Transit.heldAt_moveRows (hf : f.Transit source rows) (target : Needle) (laneCount : Nat)
    (height : α) (m : Needle) :
    (f.moveRows source target laneCount height rows).heldAt m =
      if m = target then f.heldAt target ++ rows.filter (· ∉ f.heldAt target) else f.heldAt m := by
  induction rows generalizing f with
  | nil =>
    simp only [Fabric.moveRows, List.foldl_nil, List.filter_nil, List.append_nil]
    split
    · next hm => rw [hm]
    · rfl
  | cons h rows ih =>
    have hne := (hf.pending h List.mem_cons_self).2
    have habsent := (List.nodup_cons.1 hf.nodup).1
    refine (ih (hf.moveRow target laneCount height)).trans ?_
    rw [heldAt_moveRow hne, heldAt_moveRow hne, if_pos rfl]
    by_cases hm : m = target
    · rw [if_pos hm, if_pos hm]
      by_cases hheld : h ∈ f.heldAt target
      · simp [hheld]
      · have hfilter : rows.filter (· ∉ f.heldAt target ++ [h]) =
            rows.filter (· ∉ f.heldAt target) := by
          refine List.filter_congr ?_
          intro k hk
          have hkh : k ≠ h := fun heq => habsent (heq ▸ hk)
          simp [hkh]
        rw [if_neg hheld, hfilter, List.filter_cons_of_pos (by simpa using hheld)]
        simp
    · rw [if_neg hm, if_neg hm, if_neg hm]

/-- The moves take the last loops of the paths along. -/
theorem Transit.frame?_moveRows (hf : f.Transit source rows) (target : Needle) (laneCount : Nat)
    (height : α) (c : Nat) :
    (f.moveRows source target laneCount height rows).frame? c =
      (f.frame? c).map (relocateFrame c rows source target) := by
  induction rows generalizing f with
  | nil =>
    rw [relocateFrame_eq_id (by simp), Option.map_id]
    rfl
  | cons h rows ih =>
    have hne := (hf.pending h List.mem_cons_self).2
    have habsent := (List.nodup_cons.1 hf.nodup).1
    refine (ih (hf.moveRow target laneCount height)).trans ?_
    rw [frame?_moveRow hne, Option.map_map]
    refine congrFun (congrArg Option.map (funext ?_)) (f.frame? c)
    intro fr
    -- A place that one move changes belongs to its row, which no later move is of.
    have hplace : LoopPlace.relocate c rows source target ∘ LoopPlace.relocate c [h] source target =
        LoopPlace.relocate c (h :: rows) source target := by
      funext ⟨row, needle⟩
      by_cases hrow : (⟨c, row⟩ : Held) = h
      · subst hrow
        by_cases hneedle : needle = source
        · simp [LoopPlace.relocate, hneedle, habsent]
        · simp [LoopPlace.relocate, hneedle]
      · simp [LoopPlace.relocate, hrow]
    simp [relocateFrame, ← hplace]

/-- What the moves report: each row, and how many loops it moved. -/
theorem Transit.foldl_moveRow (hf : f.Transit source rows) (target : Needle) (laneCount : Nat)
    (height : α) (events : List Event) :
    rows.foldl (fun (f, events) h =>
        let (f, more) := f.moveRow source target laneCount height h
        (f, events ++ more)) (f, events) =
      (f.moveRows source target laneCount height rows,
        events ++ rows.map (f.movedEvent source target)) := by
  induction rows generalizing f events with
  | nil => simp [Fabric.moveRows]
  | cons h rows ih =>
    have hne := (hf.pending h List.mem_cons_self).2
    have hlater :
        rows.map ((f.moveRow source target laneCount height h).1.movedEvent source target) =
          rows.map (f.movedEvent source target) := by
      refine List.map_congr_left ?_
      intro k hk
      rw [movedEvent, movedEvent, hf.rowLoops_moveRow_source target laneCount height hk]
    refine (ih (hf.moveRow target laneCount height)
      (events ++ (f.moveRow source target laneCount height h).2)).trans ?_
    rw [events_moveRow hne, hlater]
    simp [Fabric.moveRows]

end Rows

/-! ## A transfer -/

/-- The height at which a transfer draws the heads of the loops: that of what the target holds, or
else that of what the source does. -/
def landingHeight (f : Fabric α) (source target : Needle) : α :=
  (f.baseHeight? target).getD ((f.baseHeight? source).getD (Scalar.ofNat 0))

/-- A transfer from a needle that holds something moves its rows one after the other and reports
them. -/
theorem WellFormed.transfer_eq_ok {f : Fabric α} (hf : f.WellFormed) {source : Needle}
    (hheld : f.heldAt source ≠ []) (target : Needle) (laneCount : Nat) :
    f.transfer source target laneCount =
      .ok ((f.clearHeld source).moveRows source target laneCount (f.landingHeight source target)
        (f.heldAt source), (f.heldAt source).map (f.movedEvent source target)) := by
  obtain ⟨base, hbase⟩ : ∃ base, f.baseHeight? source = some base := by
    rw [← Option.ne_none_iff_exists', Ne, hf.baseHeight?_eq_none_iff]
    exact hheld
  simp only [transfer, hbase, landingHeight, Option.getD_some, Except.ok.injEq]
  exact ((transit_clearHeld hf source).foldl_moveRow target laneCount _ []).trans rfl

/-- A fabric, and the fabric with the loops of a needle moved to another. -/
structure TransferredTo (f f' : Fabric α) (source target : Needle) (laneCount : Nat) : Prop where
  geometry : f'.geometry = f.geometry
  heights : f'.heights = f.heights
  /-- The target lists the rows of the source behind its own. -/
  held : ∀ m, f'.heldAt m =
    if m = target then
      (f.clearHeld source).heldAt target ++
        (f.heldAt source).filter (· ∉ (f.clearHeld source).heldAt target)
    else (f.clearHeld source).heldAt m
  /-- Each of these rows has its loops there, behind those that it had at the target. -/
  loops : ∀ k m, f'.rowLoops k m =
    if k ∈ f.heldAt source ∧ m = target then
      (if source = target then [] else f.rowLoops k target) ++
        f.movedLoops source target laneCount (f.landingHeight source target) k
    else if k ∈ f.heldAt source ∧ m = source then [] else f.rowLoops k m
  frames : ∀ c, f'.frame? c = (f.frame? c).map (relocateFrame c (f.heldAt source) source target)

/-- What a transfer leaves, also if it is refused. -/
theorem WellFormed.transferredTo {f : Fabric α} (hf : f.WellFormed) (source target : Needle)
    (laneCount : Nat) :
    f.TransferredTo (f.apply (.transfer source target laneCount)) source target laneCount := by
  by_cases hheld : f.heldAt source = []
  · have hsame : f.apply (.transfer source target laneCount) = f := by
      rw [Fabric.apply, (hf.transfer_warns_iff source target laneCount).2 ⟨hheld, rfl⟩]
    have hclear : f.clearHeld source = f := hf.clearHeld_eq_self hheld
    rw [hsame]
    refine ⟨rfl, rfl, ?_, ?_, ?_⟩
    · intro m
      by_cases hm : m = target
      · simp [hclear, hheld, hm]
      · simp [hclear, hm]
    · simp [hheld]
    · intro c
      rw [hheld, relocateFrame_eq_id (by simp), Option.map_id]
      rfl
  · have hmoved : f.apply (.transfer source target laneCount) =
        (f.clearHeld source).moveRows source target laneCount (f.landingHeight source target)
          (f.heldAt source) := by
      rw [Fabric.apply, hf.transfer_eq_ok hheld]
    have htransit := transit_clearHeld hf source
    rw [hmoved]
    refine ⟨(moveRows_kept ..).2, (moveRows_kept ..).1, ?_, ?_, ?_⟩
    · exact htransit.heldAt_moveRows target laneCount _
    · exact htransit.rowLoops_moveRows target laneCount _
    · exact htransit.frame?_moveRows target laneCount _

/-! ## What stays of the loops -/

/-- The loops that are moved are still the loops that they were. -/
theorem forall₂_movedLoops {f : Fabric α} {source : Needle} {h : Held} {loops : List (Loop α)}
    (hloops : List.Forall₂ Loop.SameYarn loops (f.rowLoops h source)) (target : Needle)
    (laneCount : Nat) (height : α) :
    List.Forall₂ Loop.SameYarn loops (f.movedLoops source target laneCount height h) := by
  rw [movedLoops, List.forall₂_map_right_iff]
  refine hloops.imp ?_
  intro l l' hl
  split
  · exact hl
  · exact hl.withHead _

/-- A fabric, and one in which loops that a needle held were moved to another: these are drawn with
other heads, and nothing else about any loop has changed. -/
structure MovesOnly (f f' : Fabric α) (source target : Needle) : Prop where
  geometry : f'.geometry = f.geometry
  heights : f'.heights = f.heights
  /-- No row turns, and none is opened. -/
  directions : ∀ c, (f'.frame? c).map Prod.fst = (f.frame? c).map Prod.fst
  /-- The loops of a row that was held are at the target, behind those that it has there. -/
  moved : ∀ k ∈ f.heldAt source, ∃ moved, List.Forall₂ Loop.SameYarn (f.rowLoops k source) moved ∧
    f'.rowLoops k target = (if source = target then [] else f.rowLoops k target) ++ moved
  left : ∀ k ∈ f.heldAt source, source ≠ target → f'.rowLoops k source = []
  /-- Every other loop stays as it was. -/
  others : ∀ k m, ¬(k ∈ f.heldAt source ∧ (m = source ∨ m = target)) →
    f'.rowLoops k m = f.rowLoops k m

theorem TransferredTo.movesOnly {f f' : Fabric α} {source target : Needle} {laneCount : Nat}
    (h : f.TransferredTo f' source target laneCount) : f.MovesOnly f' source target where
  geometry := h.geometry
  heights := h.heights
  directions c := by
    rw [h.frames, Option.map_map]
    rfl
  moved k hk := by
    refine ⟨_, forall₂_movedLoops (List.forall₂_same.2 fun l _ => .refl l) target laneCount
      (f.landingHeight source target), ?_⟩
    rw [h.loops, if_pos ⟨hk, rfl⟩]
  left k hk hne := by
    rw [h.loops, if_neg fun hsource => hne hsource.2, if_pos ⟨hk, rfl⟩]
  others k m hkm := by
    rw [h.loops, if_neg fun htarget => hkm ⟨htarget.1, .inr htarget.2⟩,
      if_neg fun hsource => hkm ⟨hsource.1, .inl hsource.2⟩]

/-! ## There and back -/

/-- A fabric, and the fabric after the loops of a needle came back to it: they are drawn with other
heads, and everything else is as it was. -/
structure RestoredTo (f f' : Fabric α) (source : Needle) : Prop where
  geometry : f'.geometry = f.geometry
  heights : f'.heights = f.heights
  /-- Every needle holds what it held, in the same order. -/
  held : f'.held = f.held
  /-- No row turns, none is opened, and every last loop is where it was. -/
  frames : ∀ c, f'.frame? c = f.frame? c
  /-- Every row keeps loops at the same needles, and the same loops in the same order. -/
  slots : ∀ k m, Option.Rel (List.Forall₂ Loop.SameYarn) (f.slot? k m) (f'.slot? k m)
  /-- The loops that were not moved have not changed at all. -/
  others : ∀ k m, ¬(k ∈ f.heldAt source ∧ m = source) → f'.slot? k m = f.slot? k m

theorem WellFormed.restored {f : Fabric α} (hf : f.WellFormed) {source target : Needle}
    (hne : source ≠ target) (htarget : f.heldAt target = [])
    (hfree : ∀ k ∈ f.heldAt source, f.rowLoops k target = []) (laneCount laneCount' : Nat) :
    f.RestoredTo ((f.apply (.transfer source target laneCount)).apply
      (.transfer target source laneCount')) source := by
  have hthere := hf.transferredTo source target laneCount
  have hf' := hf.apply (.transfer source target laneCount)
  have hback := hf'.transferredTo target source laneCount'
  have hf'' := hf'.apply (.transfer target source laneCount')
  generalize f.apply (.transfer source target laneCount) = f' at *
  generalize f'.apply (.transfer target source laneCount') = f'' at *
  -- In between, the target lists what the source did, and the source nothing.
  have hlisted : f'.heldAt target = f.heldAt source := by
    rw [hthere.held, if_pos rfl, heldAt_clearHeld, if_neg hne.symm, htarget]
    simp
  have hempty : f'.heldAt source = [] := by
    rw [hthere.held, if_neg hne, heldAt_clearHeld, if_pos rfl]
  have hsame : ∀ {loops : List (Loop α)}, List.Forall₂ Loop.SameYarn loops loops :=
    List.forall₂_same.2 fun l _ => .refl l
  have hmoved : ∀ k ∈ f.heldAt source,
      List.Forall₂ Loop.SameYarn (f.rowLoops k source) (f''.rowLoops k source) := by
    intro k hk
    -- Between the moves the row has at the target what it had at the source, and nothing else.
    have hat : f'.rowLoops k target =
        f.movedLoops source target laneCount (f.landingHeight source target) k := by
      rw [hthere.loops, if_pos ⟨hk, rfl⟩, if_neg hne, hfree k hk, List.nil_append]
    have hleft : f'.rowLoops k source = [] := hthere.movesOnly.left k hk hne
    rw [hback.loops, hlisted, if_pos ⟨hk, rfl⟩, if_neg hne.symm, hleft, List.nil_append]
    refine forall₂_movedLoops ?_ source laneCount' _
    rw [hat]
    exact forall₂_movedLoops hsame target laneCount _
  have hothers : ∀ k m, ¬(k ∈ f.heldAt source ∧ m = source) →
      f''.rowLoops k m = f.rowLoops k m := by
    intro k m hkm
    by_cases hk : k ∈ f.heldAt source ∧ m = target
    · obtain ⟨hk, rfl⟩ := hk
      rw [hback.movesOnly.left k (hlisted ▸ hk) hne.symm, hfree k hk]
    · rw [hback.movesOnly.others k m (by rw [hlisted]; tauto),
        hthere.movesOnly.others k m (by tauto)]
  have hslots : ∀ k m, ¬(k ∈ f.heldAt source ∧ m = source) → f''.slot? k m = f.slot? k m := by
    intro k m hkm
    rw [hf''.slot?_eq, hf.slot?_eq, hothers k m hkm]
  refine ⟨hback.geometry.trans hthere.geometry, hback.heights.trans hthere.heights, ?_, ?_, ?_,
    hslots⟩
  · refine hf''.record.ext hf.record ?_
    intro m
    rw [hback.held, hlisted]
    simp only [heldAt_clearHeld, hempty, if_neg hne]
    by_cases hm : m = source
    · simp [hm]
    · by_cases hm' : m = target
      · simp [hm', htarget, hne.symm]
      · rw [if_neg hm, if_neg hm', hthere.held, if_neg hm', heldAt_clearHeld, if_neg hm]
  · intro c
    rw [hback.frames, hthere.frames, Option.map_map, hlisted]
    exact relocateFrame_back hf hne hfree c
  · intro k m
    by_cases hkm : k ∈ f.heldAt source ∧ m = source
    · obtain ⟨hk, rfl⟩ := hkm
      have hfull := hf.occupied m k hk
      have hfull' : f''.rowLoops k m ≠ [] := fun hnil =>
        hfull (List.forall₂_nil_right_iff.1 (hnil ▸ hmoved k hk))
      rw [hf.slot?_eq, hf''.slot?_eq, if_neg hfull, if_neg hfull']
      exact .some (hmoved k hk)
    · rw [hslots k m hkm]
      cases f.slot? k m with
      | none => exact .none
      | some loops => exact .some hsame

/-- Of every fabric a transfer changes no more than the loops that the source held, and of these no
more than their heads. A transfer to a free needle, where no row of the source has loops either,
succeeds, and another one back succeeds and restores the fabric but for these heads. -/
theorem transfer_there_and_back (g : Geometry α) (ops : List Operation) :
    (∀ (source target : Needle) (laneCount : Nat),
      (run g ops).MovesOnly ((run g ops).apply (.transfer source target laneCount)) source target) ∧
    ∀ (source target : Needle) (laneCount laneCount' : Nat), source ≠ target →
      (run g ops).heldAt source ≠ [] → (run g ops).heldAt target = [] →
      (∀ k ∈ (run g ops).heldAt source, (run g ops).rowLoops k target = []) →
      ∃ there back events events',
        (run g ops).transfer source target laneCount = .ok (there, events) ∧
        there.transfer target source laneCount' = .ok (back, events') ∧
        (run g ops).RestoredTo back source := by
  have hf := wellFormed_run g ops
  refine ⟨fun source target laneCount => (hf.transferredTo source target laneCount).movesOnly, ?_⟩
  intro source target laneCount laneCount' hne hheld htarget hfree
  have hthere := hf.transfer_eq_ok hheld target laneCount
  have hf' := hf.apply (.transfer source target laneCount)
  have hrestored := hf.restored hne htarget hfree laneCount laneCount'
  have hlisted : ((run g ops).apply (.transfer source target laneCount)).heldAt target ≠ [] := by
    rw [(hf.transferredTo source target laneCount).held, if_pos rfl, heldAt_clearHeld,
      if_neg hne.symm, htarget]
    simpa using hheld
  have hback := hf'.transfer_eq_ok hlisted source laneCount'
  simp only [Fabric.apply, hthere] at hback hrestored
  refine ⟨_, _, _, _, hthere, hback, ?_⟩
  simpa only [hback] using hrestored

/-- Two lanes are tucked onto a needle, and both go to the other bed and back. -/
theorem transfer_of_two_lanes_there_and_back :
    let f : Fabric Float32 := run .standard
      [.stitch false .right (.front 0) ⟨0, 2⟩, .stitch false .right (.front 0) ⟨1, 2⟩]
    ∃ there back events events', f.transfer (.front 0) (.back 0) 2 = .ok (there, events) ∧
      there.transfer (.back 0) (.front 0) 2 = .ok (back, events') ∧ back.held = f.held ∧
        f.RestoredTo back (.front 0) := by
  intro f
  obtain ⟨-, hback⟩ := transfer_there_and_back (.standard : Geometry Float32)
    [.stitch false .right (.front 0) ⟨0, 2⟩, .stitch false .right (.front 0) ⟨1, 2⟩]
  obtain ⟨there, back, events, events', hthere, hback, hrestored⟩ :=
    hback (.front 0) (.back 0) 2 2 (by decide) (by decide +kernel) (by decide +kernel)
      (by decide +kernel)
  exact ⟨there, back, events, events', hthere, hback, hrestored.held, hrestored⟩

end Fabric

end Knitting
