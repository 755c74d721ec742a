import Knitting.Proofs.Mirror.Height
import Knitting.Proofs.Mirror.Table

set_option autoImplicit false

/-! # Yarn in a mirror

Yarn in a mirror is made in the same order, by sweeps the other way, at the images of its needles.
Of its points the heights are the same numbers and the depths the same; where they are along the
needles is left open, since a box is not drawn the same way from its right as from its left. A row
keeps its loops by needle, and the sweep that writes them goes the other way too, so that the
records of mirrored yarn come in the same order (`YarnStore.Mirrors.records`). -/

namespace Knitting

open Scalar

variable {α : Type}

section Loops

variable [Scalar α]

/-! ## Loops -/

/-- At the same height and depth. -/
structure Point.Level (p p' : Point α) : Prop where
  y : Same p.y p'.y
  z : p.z = p'.z

/-- The yarn of a stitch that another sweep made the other way. -/
structure Loop.Mirrors (l l' : Loop α) : Prop where
  points : List.Forall₂ Point.Level l.points l'.points
  carrier : l'.carrier = l.carrier
  direction : l'.direction = l.direction.opposite
  directed : l.direction ≠ .undirected

namespace Loop.Mirrors

variable {l l' : Loop α}

theorem endAt (h : l.Mirrors l') (x x' : α) {y y' : α} (hy : Same y y') :
    (l.endAt x y).Mirrors (l'.endAt x' y') := by
  unfold Loop.endAt
  rw [← h.points.length_eq]
  dsimp only
  split
  · exact h
  · refine ⟨forall₂_mapIdx h.points ?_, h.carrier, h.direction, h.directed⟩
    intro i p p' hp
    refine ⟨?_, hp.z⟩
    dsimp only
    split
    · exact hy
    · exact hp.y

theorem withHead (h : l.Mirrors l') {points points' : List (Point α)}
    (hpoints : List.Forall₂ Point.Level points points') :
    (l.withHead points).Mirrors (l'.withHead points') := by
  refine ⟨forall₂_mapIdx h.points ?_, h.carrier, h.direction, h.directed⟩
  intro i p p' hp
  split
  · have hnew := rel_getElem? hpoints i
    cases hnew' : points[i]? with
    | none =>
      rw [hnew'] at hnew
      generalize points'[i]? = new' at hnew ⊢
      cases hnew
      exact hp
    | some new =>
      rw [hnew'] at hnew
      generalize points'[i]? = new' at hnew ⊢
      cases hnew with
      | some hnew => exact hnew
  · exact hp

end Loop.Mirrors

/-! ## Rows -/

/-- A row with the mirrored loops at the image of each needle. -/
structure Row.Mirrors (r r' : Row α) : Prop where
  direction : r'.direction = r.direction.opposite
  directed : r.direction ≠ .undirected
  slots : ∀ n, Option.Rel (List.Forall₂ Loop.Mirrors) (r.slot? n) (r'.slot? n.mirror)

namespace Row.Mirrors

variable {r r' : Row α}

theorem empty {direction : Direction} (h : direction ≠ .undirected) :
    (Row.empty direction : Row α).Mirrors (.empty direction.opposite) :=
  ⟨rfl, h, fun _ => .none⟩

theorem holds (h : r.Mirrors r') (n : Needle) : r'.holds n.mirror = r.holds n :=
  (isSome_eq_of_rel (h.slots n)).symm

theorem loopsOn (h : r.Mirrors r') (n : Needle) :
    List.Forall₂ Loop.Mirrors (r.loopsOn n) (r'.loopsOn n.mirror) :=
  forall₂_getD (h.slots n)

theorem setSlot (h : r.Mirrors r') (n : Needle) {loops loops' : List (Loop α)}
    (hloops : List.Forall₂ Loop.Mirrors loops loops') :
    (r.setSlot n loops).Mirrors (r'.setSlot n.mirror loops') := by
  refine ⟨h.direction, h.directed, ?_⟩
  intro m
  rw [slot?_setSlot, slot?_setSlot]
  simp only [Needle.mirror_inj]
  split
  · exact .some hloops
  · exact h.slots m

theorem clear (h : r.Mirrors r') (n : Needle) : (r.clear n).Mirrors (r'.clear n.mirror) := by
  refine ⟨h.direction, h.directed, ?_⟩
  intro m
  rw [slot?_clear, slot?_clear]
  simp only [Needle.mirror_inj]
  split
  · exact .none
  · exact h.slots m

theorem extend (h : r.Mirrors r') (n : Needle) {loops loops' : List (Loop α)}
    (hloops : List.Forall₂ Loop.Mirrors loops loops') :
    (r.extend n loops).Mirrors (r'.extend n.mirror loops') := by
  have hall : List.Forall₂ Loop.Mirrors (r.loopsOn n ++ loops) (r'.loopsOn n.mirror ++ loops') :=
    List.rel_append (h.loopsOn n) hloops
  show Row.Mirrors (if (r.loopsOn n ++ loops).isEmpty then _ else _)
    (if (r'.loopsOn n.mirror ++ loops').isEmpty then _ else _)
  rw [isEmpty_eq_of_forall₂ hall]
  split
  · exact h.clear n
  · exact h.setSlot n hall

end Row.Mirrors

end Loops

/-! ### The order of a sweep -/

namespace Row

/-- How far along a sweep an index is. -/
def progress (direction : Direction) (i : Int) : Int := if direction = .left then -i else i

theorem progress_inj {direction : Direction} {i j : Int} :
    progress direction i = progress direction j ↔ i = j := by
  unfold progress
  split
  · exact Int.neg_inj
  · exact Iff.rfl

/-- A sweep the other way is at the image of an index when this one is at the index. -/
theorem progress_neg {direction : Direction} (h : direction ≠ .undirected) (i : Int) :
    progress direction.opposite (-i) = progress direction i := by
  cases direction with
  | left => rfl
  | right => exact Int.neg_neg i
  | undirected => exact absurd rfl h

theorem noLater_iff {direction : Direction} {n m : Needle} :
    noLater direction n m = true ↔ progress direction n.index < progress direction m.index ∨
      progress direction n.index = progress direction m.index ∧ n.bed.rank ≤ m.bed.rank := by
  rw [progress_inj]
  unfold noLater progress
  split
  · simp [*]
  · split
    · simp [*]
    · simp [*]

theorem noLater_mirror {direction : Direction} (h : direction ≠ .undirected) {n m : Needle} :
    noLater direction.opposite n.mirror m.mirror = true ↔ noLater direction n m = true := by
  simp only [noLater_iff, Needle.index_mirror, Needle.bed_mirror, progress_neg h]

theorem noLater_antisymm {direction : Direction} {n m : Needle} (h : noLater direction n m = true)
    (h' : noLater direction m n = true) : n = m := by
  rw [noLater_iff] at h h'
  have hindex : progress direction n.index = progress direction m.index := by omega
  have hbed : n.bed.rank = m.bed.rank := by omega
  cases n
  cases m
  rw [Needle.mk.injEq]
  exact ⟨Bed.rank_injective hbed, progress_inj.1 hindex⟩

/-- The needles of a row come in the order of its sweep. -/
theorem pairwise_traversal (r : Row α) :
    (r.traversal.map Prod.fst).Pairwise fun n m => noLater r.direction n m = true := by
  refine List.pairwise_map.2 (List.pairwise_mergeSort ?_ ?_ r.slots)
  · intro a b c hab hbc
    rw [noLater_iff] at hab hbc ⊢
    omega
  · intro a b
    rw [Bool.or_eq_true, noLater_iff, noLater_iff]
    omega

theorem mem_traversal_iff {r : Row α} {n : Needle} {loops : List (Loop α)} :
    (n, loops) ∈ r.traversal ↔ r.slot? n = some loops := by
  rw [traversal, List.mem_mergeSort, mem_slots_iff]

theorem mem_needles_iff {r : Row α} {n : Needle} :
    n ∈ r.traversal.map Prod.fst ↔ ∃ loops, r.slot? n = some loops := by
  simp only [List.mem_map, Prod.exists, exists_and_right, exists_eq_right, mem_traversal_iff]

theorem nodup_traversal (r : Row α) : (r.traversal.map Prod.fst).Nodup :=
  ((List.mergeSort_perm ..).map Prod.fst).nodup_iff.2 r.nodup_needles

variable [Scalar α]

/-- Mirrored rows are written in the same order. -/
theorem Mirrors.needles {r r' : Row α} (h : r.Mirrors r') :
    r'.traversal.map Prod.fst = (r.traversal.map Prod.fst).map Needle.mirror := by
  have hperm : (r'.traversal.map Prod.fst).Perm
      ((r.traversal.map Prod.fst).map Needle.mirror) := by
    refine (List.perm_ext_iff_of_nodup r'.nodup_traversal
      (r.nodup_traversal.map Needle.mirror_injective)).2 ?_
    intro n
    have hslot : (∃ loops, r'.slot? n = some loops) ↔ ∃ loops, r.slot? n.mirror = some loops := by
      have hsome := isSome_eq_of_rel (h.slots n.mirror)
      rw [Needle.mirror_mirror] at hsome
      rw [← Option.isSome_iff_exists, ← Option.isSome_iff_exists, hsome]
    rw [mem_needles_iff, hslot, ← mem_needles_iff, List.mem_map (f := Needle.mirror)]
    constructor
    · intro hn
      exact ⟨n.mirror, hn, n.mirror_mirror⟩
    · rintro ⟨m, hm, rfl⟩
      rwa [Needle.mirror_mirror]
  refine hperm.eq_of_pairwise (fun n m _ _ => noLater_antisymm) r'.pairwise_traversal ?_
  rw [List.pairwise_map, h.direction]
  exact r.pairwise_traversal.imp (noLater_mirror h.directed).2

theorem Mirrors.loops {r r' : Row α} (h : r.Mirrors r') :
    List.Forall₂ Loop.Mirrors r.loops r'.loops := by
  have htraversal := forall₂_of_keys (R := List.Forall₂ Loop.Mirrors) h.needles (by
    intro n loops loops' hn hn'
    have hslots := h.slots n
    rw [mem_traversal_iff.1 hn, mem_traversal_iff.1 hn'] at hslots
    cases hslots with
    | some hloops => exact hloops)
  exact List.rel_flatMap htraversal fun _ _ hslot => hslot.2

end Row

/-! ## Paths -/

/-- The image of a place in a path. -/
def LoopPlace.mirror (place : LoopPlace) : LoopPlace := ⟨place.row, place.needle.mirror⟩

@[simp] theorem LoopPlace.mirror_inj {place place' : LoopPlace} :
    place.mirror = place'.mirror ↔ place = place' := by
  obtain ⟨row, n⟩ := place
  obtain ⟨row', n'⟩ := place'
  simp [mirror]

variable [Scalar α]

/-- Mirrored rows in the same order, and the last loop at the image of its place. -/
structure YarnPath.Mirrors (p p' : YarnPath α) : Prop where
  rows : List.Forall₂ Row.Mirrors p.rows p'.rows
  last : p'.last = p.last.map LoopPlace.mirror

namespace YarnPath.Mirrors

variable {p p' : YarnPath α}

theorem empty : (YarnPath.empty : YarnPath α).Mirrors .empty := ⟨.nil, rfl⟩

theorem lastLoop? (h : p.Mirrors p') : Option.Rel Loop.Mirrors p.lastLoop? p'.lastLoop? := by
  unfold YarnPath.lastLoop?
  rw [h.last]
  cases p.last with
  | none => exact .none
  | some place =>
    refine rel_bind (rel_getElem? h.rows place.row) ?_
    intro row row' hrow
    refine rel_bind (hrow.slots place.needle) ?_
    intro loops loops' hloops
    exact rel_getLast? hloops

theorem modifyRow (h : p.Mirrors p') (i : Nat) {f f' : Row α → Row α}
    (hf : ∀ r r', r.Mirrors r' → (f r).Mirrors (f' r')) :
    (p.modifyRow i f).Mirrors (p'.modifyRow i f') :=
  ⟨forall₂_modify h.rows i hf, h.last⟩

theorem modifyLastLoop (h : p.Mirrors p') {f f' : Loop α → Loop α}
    (hf : ∀ l l', l.Mirrors l' → (f l).Mirrors (f' l')) :
    (p.modifyLastLoop f).Mirrors (p'.modifyLastLoop f') := by
  unfold YarnPath.modifyLastLoop
  rw [h.last]
  cases p.last with
  | none => exact h
  | some place =>
    refine h.modifyRow place.row ?_
    intro row row' hrow
    have hslot : Option.Rel (List.Forall₂ Loop.Mirrors) (row.slot? place.needle)
        (row'.slot? place.mirror.needle) := hrow.slots place.needle
    generalize row.slot? place.needle = loops at hslot
    generalize row'.slot? place.mirror.needle = loops' at hslot
    cases hslot with
    | none => exact hrow
    | some hloops =>
      dsimp only
      rw [hloops.length_eq]
      exact hrow.setSlot place.needle (forall₂_modify hloops _ hf)

theorem openRow (h : p.Mirrors p') (i : Nat) {direction : Direction}
    (hdirection : direction ≠ .undirected) :
    (p.openRow i direction).Mirrors (p'.openRow i direction.opposite) := by
  refine ⟨List.rel_append h.rows ?_, h.last⟩
  rw [h.rows.length_eq]
  generalize i + 1 - p'.rows.length = count
  induction count with
  | zero => exact .nil
  | succ count ih => exact .cons (.empty hdirection) ih

theorem nextRow (h : p.Mirrors p') (direction : Direction) (n : Needle) (knit : Bool) :
    p'.nextRow direction.opposite n.mirror knit = p.nextRow direction n knit := by
  unfold YarnPath.nextRow
  have hlast := rel_getLast? h.rows
  rw [h.rows.length_eq]
  generalize p.rows.getLast? = row at hlast
  generalize p'.rows.getLast? = row' at hlast
  cases hlast with
  | none => rfl
  | some hrow =>
    dsimp only
    rw [hrow.direction, hrow.holds]
    simp only [ne_eq, Direction.opposite_inj]

theorem addLoop (h : p.Mirrors p') (i : Nat) (n : Needle) (knit : Bool) {l l' : Loop α}
    (hl : l.Mirrors l') : (p.addLoop i n knit l).Mirrors (p'.addLoop i n.mirror knit l') := by
  have hrow : ∀ r r' : Row α, r.Mirrors r' →
      Row.Mirrors (if knit then r.replace n l else r.extend n [l])
        (if knit then r'.replace n.mirror l' else r'.extend n.mirror [l']) := by
    intro r r' hr
    split
    · exact hr.setSlot n (.cons hl .nil)
    · exact hr.extend n (.cons hl .nil)
  unfold YarnPath.addLoop
  rw [hl.direction]
  exact ⟨((h.openRow i hl.directed).modifyRow i hrow).rows, rfl⟩

theorem land (h : p.Mirrors p') (i : Nat) (source target : Needle) {direction : Direction}
    (hdirection : direction ≠ .undirected) {loops loops' : List (Loop α)}
    (hloops : List.Forall₂ Loop.Mirrors loops loops') :
    (p.land i source target direction loops).Mirrors
      (p'.land i source.mirror target.mirror direction.opposite loops') := by
  refine ⟨((h.openRow i hdirection).modifyRow i fun r r' hr => hr.extend target hloops).rows, ?_⟩
  simp only [YarnPath.land, h.last, Option.map_map]
  congr 1
  funext last
  have hsource : last.mirror = ⟨i, source.mirror⟩ ↔ last = ⟨i, source⟩ :=
    @LoopPlace.mirror_inj last ⟨i, source⟩
  simp only [Function.comp_apply, hsource]
  split <;> rfl

theorem loops (h : p.Mirrors p') : List.Forall₂ Loop.Mirrors p.loops p'.loops :=
  List.rel_flatMap h.rows fun _ _ hrow => hrow.loops

end YarnPath.Mirrors

/-! ## Stores -/

/-- A mirrored path in every lane. -/
def YarnStore.Mirrors (s s' : YarnStore α) : Prop :=
  ∀ lane, Option.Rel YarnPath.Mirrors (s.path? lane) (s'.path? lane)

namespace YarnStore.Mirrors

variable {s s' : YarnStore α}

theorem empty : (YarnStore.empty : YarnStore α).Mirrors .empty := fun _ => .none

theorem path (h : s.Mirrors s') (lane : Nat) : (s.path lane).Mirrors (s'.path lane) := by
  have hpath := h lane
  unfold YarnStore.path
  generalize s.path? lane = p at hpath ⊢
  generalize s'.path? lane = p' at hpath ⊢
  cases hpath with
  | none => exact .empty
  | some hp => exact hp

theorem modifyPath (h : s.Mirrors s') (lane : Nat) {f f' : YarnPath α → YarnPath α}
    (hf : ∀ p p', p.Mirrors p' → (f p).Mirrors (f' p')) :
    (s.modifyPath lane f).Mirrors (s'.modifyPath lane f') := by
  intro lane'
  rw [path?_modifyPath, path?_modifyPath]
  split
  · exact .some (hf _ _ (h.path lane))
  · exact h lane'

theorem row? (h : s.Mirrors s') (lane row : Nat) :
    Option.Rel Row.Mirrors (s.row? lane row) (s'.row? lane row) := by
  rw [row?_eq_getElem?, row?_eq_getElem?]
  exact rel_getElem? (h.path lane).rows row

theorem slot? (h : s.Mirrors s') (lane row : Nat) (n : Needle) :
    Option.Rel (List.Forall₂ Loop.Mirrors) ((s.row? lane row).bind (·.slot? n))
      ((s'.row? lane row).bind (·.slot? n.mirror)) :=
  rel_bind (h.row? lane row) fun _ _ hrow => hrow.slots n

theorem modifyRow (h : s.Mirrors s') (lane row : Nat) {f f' : Row α → Row α}
    (hf : ∀ r r', r.Mirrors r' → (f r).Mirrors (f' r')) :
    (s.modifyRow lane row f).Mirrors (s'.modifyRow lane row f') := by
  have hrow := h.row? lane row
  unfold YarnStore.modifyRow
  generalize s.row? lane row = r at hrow ⊢
  generalize s'.row? lane row = r' at hrow ⊢
  cases hrow with
  | none => exact h
  | some _ => exact h.modifyPath lane fun p p' hp => hp.modifyRow row hf

end YarnStore.Mirrors

/-! ## The stream of coordinates -/

/-- The same step of the stream, with its point at the same height and depth. -/
inductive Record.Level : Record α → Record α → Prop
  | material (lane : Nat) : Level (.material lane) (.material lane)
  | point {p p' : Point α} (h : p.Level p') (corridor : Bool) :
    Level (.point p corridor) (.point p' corridor)

theorem Loop.Mirrors.records {l l' : Loop α} (h : l.Mirrors l') :
    List.Forall₂ Record.Level l.records l'.records := by
  have hrecords : ∀ l : Loop α, l.records = l.points.mapIdx fun i position =>
      .point position (corridorStart ≤ i) := by
    intro l
    rw [Loop.records, List.mapIdx_eq_zipIdx_map]
  rw [hrecords, hrecords]
  exact forall₂_mapIdx h.points fun i p p' hp => .point hp _

theorem YarnPath.Mirrors.records {p p' : YarnPath α} (h : p.Mirrors p') (lane : Nat) :
    List.Forall₂ Record.Level (p.records lane) (p'.records lane) := by
  unfold YarnPath.records
  rw [isEmpty_eq_of_forall₂ h.loops]
  split
  · exact .nil
  · exact .cons (.material lane) (List.rel_flatMap h.loops fun _ _ hl => hl.records)

/-- Mirrored yarn is written as records of the same shape in the same order. -/
theorem YarnStore.Mirrors.records {s s' : YarnStore α} (h : s.Mirrors s') :
    List.Forall₂ Record.Level s.records s'.records := by
  refine List.rel_flatMap (Table.forall₂_entries h) ?_
  rintro ⟨lane, p⟩ ⟨lane', p'⟩ ⟨hlane, hp⟩
  obtain rfl : lane' = lane := hlane
  exact hp.records lane'

end Knitting
