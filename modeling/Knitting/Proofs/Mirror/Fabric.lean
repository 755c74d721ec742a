import Knitting.Proofs.Fabric.Effect
import Knitting.Proofs.Mirror.Yarn
import Mathlib

set_option autoImplicit false

/-! # The fabric in a mirror

The image of a call is the call at the images of its needles, the other way (`Operation.mirror`). It
makes of the image of a fabric the image of what the call makes of the fabric itself
(`Fabric.Mirrors.apply`). What is looked for to the left of a needle is found to the right of its
image: the nearest neighbours change places, of which only the higher one matters, and the gaps that
yarn crosses on its way change places too. -/

namespace Knitting

open Scalar LawfulScalar

/-- A call at the images of its needles. -/
def Operation.mirror : Operation → Operation
  | .stitch knit direction n lane => .stitch knit direction.opposite n.mirror lane
  | .transfer source target laneCount => .transfer source.mirror target.mirror laneCount
  | .drop n => .drop n.mirror

/-- A stitch is made in a direction. -/
def Operation.IsDirected : Operation → Prop
  | .stitch _ direction _ _ => direction ≠ .undirected
  | .transfer _ _ _ => True
  | .drop _ => True

variable {α : Type} [Scalar α]

/-! ## Outlines -/

section Outlines

variable [LawfulScalar α]

/-- The heights and depths of a stitch depend on the bed of its needle and on its lane, but not on
its direction and its index. -/
theorem Geometry.level_stitchBox (g : Geometry α) (direction direction' : Direction)
    {n n' : Needle} (hbed : n'.bed = n.bed) (lane : Lane) {height height' : α}
    (hheight : Same height height') {carrierHeight carrierHeight' : α}
    (hcarrier : Same carrierHeight carrierHeight') :
    List.Forall₂ Point.Level (g.stitchBox ⟨direction, n, lane, height, carrierHeight⟩)
      (g.stitchBox ⟨direction', n', lane, height', carrierHeight'⟩) := by
  obtain ⟨bed, i⟩ := n
  obtain ⟨bed', i'⟩ := n'
  obtain rfl : bed' = bed := hbed
  have hneck := same_add (g.boxHeight / ofNat 3) hheight
  have hcrown := same_add (g.boxHeight / ofNat 3) hneck
  have hdown := same_sub (g.boxHeight / ofNat 3) hcrown
  have hfoot := same_sub (g.boxHeight / ofNat 3) hdown
  exact .cons ⟨hcarrier, rfl⟩ <| .cons ⟨hheight, rfl⟩ <| .cons ⟨hheight, rfl⟩ <|
    .cons ⟨hheight, rfl⟩ <| .cons ⟨hneck, rfl⟩ <| .cons ⟨hneck, rfl⟩ <| .cons ⟨hcrown, rfl⟩ <|
    .cons ⟨hcrown, rfl⟩ <| .cons ⟨hcrown, rfl⟩ <| .cons ⟨hcrown, rfl⟩ <| .cons ⟨hdown, rfl⟩ <|
    .cons ⟨hdown, rfl⟩ <| .cons ⟨hfoot, rfl⟩ <| .cons ⟨hfoot, rfl⟩ <| .cons ⟨hfoot, rfl⟩ <|
    .cons ⟨hfoot, rfl⟩ <| .cons ⟨hheight, rfl⟩ <| .cons ⟨hheight, rfl⟩ .nil

theorem Geometry.headHeight_same (g : Geometry α) {height height' : α} (h : Same height height') :
    Same (g.headHeight height) (g.headHeight height') :=
  same_add _ (same_add _ h)

theorem Point.Level.sub {p p' : Point α} (h : p.Level p') (q : Point α) :
    (p.sub q).Level (p'.sub q) := by
  refine ⟨same_sub q.y h.y, ?_⟩
  show p.z - q.z = p'.z - q.z
  rw [h.z]

namespace Fabric

theorem level_outline (g : Geometry α) (direction direction' : Direction) {n n' : Needle}
    (hbed : n'.bed = n.bed) (lane : Lane) {height height' : α} (hheight : Same height height')
    {carrierHeight carrierHeight' : α} (hcarrier : Same carrierHeight carrierHeight')
    {head head' : Option α} (hhead : Option.Rel Same head head') :
    List.Forall₂ Point.Level (outline g ⟨direction, n, lane, height, carrierHeight⟩ head)
      (outline g ⟨direction', n', lane, height', carrierHeight'⟩ head') := by
  have hpoints := g.level_stitchBox direction direction' hbed lane hheight hcarrier
  cases hhead with
  | none => exact hpoints
  | some htop =>
    have hnew := g.level_stitchBox direction direction' hbed lane htop hcarrier
    refine forall₂_mapIdx (forall₂_zip hpoints hnew) ?_
    intro i pq pq' hpq
    dsimp only
    split
    · exact hpq.2
    · exact hpq.1

end Fabric

end Outlines

/-! ## Fabrics -/

/-- The image of a fabric: the same rows on the images of needles, and mirrored yarn and heights. -/
structure Fabric.Mirrors (f f' : Fabric α) : Prop where
  geometry : f'.geometry = f.geometry
  heights : f.heights.Mirrors f'.heights
  store : f.store.Mirrors f'.store
  held : ∀ n, f'.held.at? n.mirror = f.held.at? n

namespace Fabric.Mirrors

variable {f f' : Fabric α}

theorem empty (g : Geometry α) : (Fabric.empty g).Mirrors (.empty g) :=
  ⟨rfl, HeightIndex.mirrors_empty, .empty, fun _ => rfl⟩

theorem withStore (h : f.Mirrors f') {store store' : YarnStore α} (hs : store.Mirrors store') :
    ({ f with store } : Fabric α).Mirrors { f' with store := store' } :=
  ⟨h.geometry, h.heights, hs, h.held⟩

theorem withHeights (h : f.Mirrors f') {heights heights' : HeightIndex α}
    (hh : heights.Mirrors heights') :
    ({ f with heights } : Fabric α).Mirrors { f' with heights := heights' } :=
  ⟨h.geometry, hh, h.store, h.held⟩

/-! ### What is on a needle -/

theorem heldAt (h : f.Mirrors f') (n : Needle) : f'.heldAt n.mirror = f.heldAt n := by
  rw [Fabric.heldAt, Fabric.heldAt, h.held]

theorem loopsAt (h : f.Mirrors f') (n : Needle) :
    List.Forall₂ Loop.Mirrors (f.loopsAt n) (f'.loopsAt n.mirror) := by
  unfold Fabric.loopsAt
  rw [h.heldAt]
  refine List.rel_flatMap (R := Eq) (List.forall₂_same.2 fun _ _ => rfl) ?_
  rintro k _ rfl
  exact forall₂_getD (h.store.slot? k.lane k.row n)

theorem setHeld (h : f.Mirrors f') (n : Needle) (k : Held) :
    (f.setHeld n k).Mirrors (f'.setHeld n.mirror k) := by
  refine ⟨h.geometry, h.heights, h.store, ?_⟩
  intro m
  simp only [Fabric.setHeld, NeedleTable.at?_put, Needle.mirror_inj, h.held]

theorem clearHeld (h : f.Mirrors f') (n : Needle) :
    (f.clearHeld n).Mirrors (f'.clearHeld n.mirror) := by
  refine ⟨h.geometry, h.heights, h.store, ?_⟩
  intro m
  simp only [Fabric.clearHeld, NeedleTable.at?_remove, Needle.mirror_inj, h.held]

theorem addHeld (h : f.Mirrors f') (n : Needle) (k : Held) :
    (f.addHeld n k).Mirrors (f'.addHeld n.mirror k) := by
  unfold Fabric.addHeld
  rw [h.heldAt]
  split
  · exact h
  · refine ⟨h.geometry, h.heights, h.store, ?_⟩
    intro m
    simp only [NeedleTable.at?_put, Needle.mirror_inj, h.held]

theorem listed (h : f.Mirrors f') (n : Needle) (k : Held) (knit : Bool) :
    (if knit then f.setHeld n k else f.addHeld n k).Mirrors
      (if knit then f'.setHeld n.mirror k else f'.addHeld n.mirror k) := by
  cases knit with
  | false => exact h.addHeld n k
  | true => exact h.setHeld n k

/-! ### Neighbours -/

theorem indices (h : f.Mirrors f') (b : Bed) :
    f'.held.indices b = ((f.held.indices b).map Neg.neg).reverse := by
  have hat : ∀ (f : Fabric α) (i : Int), (((f.held.get? b).getD .empty).get? i) =
      f.held.at? ⟨b, i⟩ := by
    intro f i
    unfold NeedleTable.at?
    cases f.held.get? b <;> rfl
  have hindices : ∀ f : Fabric α, f.held.indices b = ((f.held.get? b).getD .empty).keys := by
    intro f
    unfold NeedleTable.indices
    cases f.held.get? b <;> rfl
  rw [hindices, hindices]
  refine Table.keys_neg ?_
  intro i
  rw [hat, hat]
  exact congrArg Option.isSome (h.held ⟨b, i⟩)

/-- The neighbours to the right of the image of a needle are the images of those to its left. -/
theorem rightNeighbours (h : f.Mirrors f') (n : Needle) :
    f'.rightNeighbours n.mirror = (f.leftNeighbours n).map Needle.mirror := by
  unfold Fabric.rightNeighbours Fabric.leftNeighbours
  rw [Needle.bed_mirror, h.indices]
  simp only [List.filter_reverse, List.filter_map, List.map_reverse, List.map_map,
    Needle.index_mirror]
  congr 2
  · refine List.filter_congr ?_
    intro i _
    simp only [Function.comp_apply, Int.neg_lt_neg_iff]

/-- And those to its left are the images of those to the right. -/
theorem leftNeighbours (h : f.Mirrors f') (n : Needle) :
    f'.leftNeighbours n.mirror = (f.rightNeighbours n).map Needle.mirror := by
  unfold Fabric.rightNeighbours Fabric.leftNeighbours
  rw [Needle.bed_mirror, h.indices]
  simp only [List.filter_reverse, List.filter_map, List.map_reverse, List.map_map,
    List.reverse_reverse, Needle.index_mirror]
  congr 1
  refine List.filter_congr ?_
  intro i _
  simp only [Function.comp_apply, Int.neg_lt_neg_iff]

/-! ### The end of a path, and drops -/

theorem tail? (h : f.Mirrors f') (lane : Nat) :
    Option.Rel (fun tail tail' => tail'.1 = tail.1.mirror ∧ Same tail.2 tail'.2) (f.tail? lane)
      (f'.tail? lane) := by
  refine rel_bind (h.store lane) ?_
  intro path path' hpath
  show Option.Rel _ (path.last.bind _) (path'.last.bind _)
  rw [hpath.last]
  cases path.last with
  | none => exact .none
  | some place =>
    refine rel_bind hpath.lastLoop? ?_
    intro l l' hl
    refine rel_bind (rel_getLast? hl.points) ?_
    intro p p' hp
    exact .some ⟨rfl, hp.y⟩

/-- A drop warns with its image, or both let go what they find. -/
theorem drop (h : f.Mirrors f') (n : Needle) :
    (f.drop n = .error (.emptyDrop n) ∧ f'.drop n.mirror = .error (.emptyDrop n.mirror)) ∨
      ∃ dropped dropped', f.drop n = .ok dropped ∧ f'.drop n.mirror = .ok dropped' ∧
        dropped.1.Mirrors dropped'.1 := by
  unfold Fabric.drop
  rw [h.heldAt]
  cases f.heldAt n with
  | nil => exact .inl ⟨rfl, rfl⟩
  | cons k rows => exact .inr ⟨_, _, rfl, rfl, h.clearHeld n⟩

section Heights

variable [LawfulScalar α]

/-! ### Heights of loops -/

theorem baseHeight? (h : f.Mirrors f') (n : Needle) :
    Option.Rel Same (f.baseHeight? n) (f'.baseHeight? n.mirror) := by
  unfold Fabric.baseHeight?
  rw [h.geometry]
  have htop : Option.Rel Same
      (greatest? ((f.loopsAt n).filterMap fun l => (l.points[headTop]?).map (·.y)))
      (greatest? ((f'.loopsAt n.mirror).filterMap fun l => (l.points[headTop]?).map (·.y))) := by
    refine greatest?_same_of_forall₂ (List.rel_filterMap ?_ (h.loopsAt n))
    intro l l' hl
    exact rel_map (rel_getElem? hl.points headTop) fun _ _ hp => hp.y
  exact rel_map htop fun _ _ hy => same_sub _ (same_sub _ hy)

theorem findSome?_baseHeight? (h : f.Mirrors f') (ns : List Needle) :
    Option.Rel Same (ns.findSome? f.baseHeight?)
      ((ns.map Needle.mirror).findSome? f'.baseHeight?) := by
  induction ns with
  | nil => exact .none
  | cons n ns ih =>
    have hn := h.baseHeight? n
    rw [List.map_cons, List.findSome?_cons, List.findSome?_cons]
    generalize f.baseHeight? n = top at hn
    generalize f'.baseHeight? n.mirror = top' at hn
    cases hn with
    | none => exact ih
    | some hn => exact .some hn

/-- The two neighbours change places, which does not change how high the higher of them is. -/
theorem neighbourHeight (h : f.Mirrors f') (n : Needle) :
    Same (f.neighbourHeight n) (f'.neighbourHeight n.mirror) := by
  have hleft := h.findSome?_baseHeight? (f.leftNeighbours n)
  have hright := h.findSome?_baseHeight? (f.rightNeighbours n)
  rw [← h.rightNeighbours] at hleft
  rw [← h.leftNeighbours] at hright
  unfold Fabric.neighbourHeight
  dsimp only
  generalize (f.leftNeighbours n).findSome? f.baseHeight? = left at hleft
  generalize (f.rightNeighbours n).findSome? f.baseHeight? = right at hright
  generalize (f'.rightNeighbours n.mirror).findSome? f'.baseHeight? = right' at hleft
  generalize (f'.leftNeighbours n.mirror).findSome? f'.baseHeight? = left' at hright
  have hlist : ∀ {o o' : Option α}, Option.Rel Same o o' →
      List.Forall₂ Same o.toList o'.toList := by
    intro o o' ho
    cases ho with
    | none => exact .nil
    | some ho => exact .cons ho .nil
  have hswapped : SameNumbers (ofNat 0 :: (left.toList ++ right.toList))
      (ofNat 0 :: (right'.toList ++ left'.toList)) :=
    sameNumbers_of_forall₂ (.cons (.refl _) (List.rel_append (hlist hleft) (hlist hright)))
  exact (hswapped.trans_perm (List.perm_append_comm.cons _)).same_top (isTop_foldl_max _ _)
    (isTop_foldl_max _ _)

/-- A stitch stands as high as its image. -/
theorem stitchBase (h : f.Mirrors f') (knit : Bool) (n : Needle) :
    Same (f.stitchBase knit n) (f'.stitchBase knit n.mirror) := by
  have hbase := h.baseHeight? n
  unfold Fabric.stitchBase
  generalize f.baseHeight? n = base at hbase
  generalize f'.baseHeight? n.mirror = base' at hbase
  cases hbase with
  | none => cases knit <;> exact h.neighbourHeight n
  | some hbase =>
    cases knit with
    | false => exact hbase
    | true =>
      dsimp only
      rw [h.geometry]
      exact same_add _ hbase

theorem stitchHead? (h : f.Mirrors f') (knit : Bool) (n : Needle) :
    Option.Rel Same (f.stitchHead? knit n) (f'.stitchHead? knit n.mirror) := by
  unfold Fabric.stitchHead?
  rw [(h.stitchBase knit n).lt_eq (h.neighbourHeight n)]
  split
  · exact .some (h.neighbourHeight n)
  · exact .none

/-! ### Reaching a stitch -/

theorem clearCrossed (h : f.Mirrors f') {height height' : α} (hheight : Same height height')
    (n : Needle) (lane : Lane) :
    Same (f.clearCrossed height n lane) (f'.clearCrossed height' n.mirror lane) := by
  unfold Fabric.clearCrossed
  rw [h.geometry]
  exact h.heights.clearLanes hheight n.index (crossedLanes n lane) _

/-- The yarn between two needles has its image between their images. -/
theorem span_neg (i j : Int) : min (-i) (-j) = -max i j ∧ max (-i) (-j) = -min i j := by
  omega

theorem arrival (h : f.Mirrors f') (lane : Lane) (n : Needle) (place : LoopPlace) {tail tail' : α}
    (htail : Same tail tail') :
    Same (f.arrival lane n place tail) (f'.arrival lane n.mirror place.mirror tail') := by
  obtain ⟨hlo, hhi⟩ := span_neg n.index place.needle.index
  have hclear := h.heights.clearSpan htail (min n.index place.needle.index)
    (max n.index place.needle.index) lane.index f.geometry.epsilon
  rw [← hlo, ← hhi] at hclear
  have hgeometry := h.geometry
  unfold Fabric.arrival
  dsimp only
  rw [hgeometry]
  exact h.clearCrossed (h.clearCrossed hclear n lane) place.needle lane

theorem leadTo (h : f.Mirrors f') (lane : Lane) (direction direction' : Direction) (n : Needle)
    (place : LoopPlace) {height height' : α} (hheight : Same height height') :
    (f.leadTo lane direction n place height).Mirrors
      (f'.leadTo lane direction' n.mirror place.mirror height') := by
  obtain ⟨hlo, hhi⟩ := span_neg n.index place.needle.index
  have hraised := h.heights.raiseRange (min n.index place.needle.index)
    (max n.index place.needle.index) lane.index hheight
  rw [← hlo, ← hhi] at hraised
  refine ⟨h.geometry, hraised, ?_, h.held⟩
  refine h.store.modifyPath lane.index fun p p' hp => hp.modifyLastLoop ?_
  intro l l' hl
  exact hl.endAt _ _ hheight

theorem reach (h : f.Mirrors f') (lane : Lane) (direction direction' : Direction) (n : Needle)
    {height height' : α} (hheight : Same height height') :
    (f.reach lane direction n height).1.Mirrors (f'.reach lane direction' n.mirror height').1 ∧
      Same (f.reach lane direction n height).2 (f'.reach lane direction' n.mirror height').2 := by
  have htail := h.tail? lane.index
  unfold Fabric.reach
  generalize f.tail? lane.index = tail at htail
  generalize f'.tail? lane.index = tail' at htail
  cases htail with
  | none => exact ⟨h, h.clearCrossed hheight n lane⟩
  | @some tail tail' htail =>
    obtain ⟨place, y⟩ := tail
    obtain ⟨place', y'⟩ := tail'
    obtain ⟨hplace, hy⟩ := htail
    obtain rfl : place' = place.mirror := hplace
    have harrives := h.arrival lane n place hy
    exact ⟨h.leadTo lane direction direction' n place harrives, harrives⟩

/-! ### Stitches -/

/-- A stitch is recorded at the images of the places where it is recorded. -/
theorem recorded (h : f.Mirrors f') (n : Needle) (lane : Lane) {carrierHeight carrierHeight' : α}
    (hcarrier : Same carrierHeight carrierHeight') {top top' : α} (htop : Same top top') :
    let heights := f.heights.raise (.place n.index .corridor lane.index) carrierHeight
    let heights' := f'.heights.raise (.place n.mirror.index .corridor lane.index) carrierHeight'
    let key : Needle → HeightKey := fun m => .place m.index (.ofSide m.bed.side) lane.index
    ({ f with heights := heights.raise (key n) (f.geometry.headHeight top) } : Fabric α).Mirrors
      { f' with heights := heights'.raise (key n.mirror) (f'.geometry.headHeight top') } := by
  intro heights heights' key
  refine h.withHeights ?_
  have hkey : key n.mirror = (key n).mirror := (HeightKey.mirror_place_ofSide ..).symm
  rw [h.geometry, hkey]
  have hcorridor : heights.Mirrors heights' :=
    h.heights.raise (.place n.index .corridor lane.index) hcarrier
  exact hcorridor.raise _ (f.geometry.headHeight_same htop)

theorem place (h : f.Mirrors f') {direction : Direction} (hdirection : direction ≠ .undirected)
    (n : Needle) (lane : Lane) {height height' : α} (hheight : Same height height')
    {head head' : Option α} (hhead : Option.Rel Same head head') (knit : Bool) :
    (f.place direction n lane height head knit).1.Mirrors
      (f'.place direction.opposite n.mirror lane height' head' knit).1 := by
  have hrow := (h.store.path lane.index).nextRow direction n knit
  obtain ⟨hreached, hcarrier⟩ := h.reach lane direction direction.opposite n hheight
  unfold Fabric.place
  rw [hrow]
  dsimp only
  generalize f.reach lane direction n height = reached at hreached hcarrier
  generalize f'.reach lane direction.opposite n.mirror height' = reached' at hreached hcarrier
  obtain ⟨g, carrierHeight⟩ := reached
  obtain ⟨g', carrierHeight'⟩ := reached'
  dsimp only at hreached hcarrier ⊢
  generalize (f.store.path lane.index).nextRow direction n knit = row
  have hgeometry := hreached.geometry
  -- The yarn of the stitch, the row that the needle lists, and the heights, one after the other.
  have hloop : Loop.Mirrors
      ⟨outline g.geometry ⟨direction, n, lane, height, carrierHeight⟩ head, lane.index, direction⟩
      ⟨outline g'.geometry ⟨direction.opposite, n.mirror, lane, height', carrierHeight'⟩ head',
        lane.index, direction.opposite⟩ := by
    rw [hgeometry]
    exact ⟨level_outline _ _ _ n.bed_mirror lane hheight hcarrier hhead, rfl, rfl, hdirection⟩
  have hmade := hreached.withStore
    (hreached.store.modifyPath lane.index fun p p' hp => hp.addLoop row n knit hloop)
  have hlisted := hmade.listed n ⟨lane.index, row⟩ knit
  have hstands : Same (head.getD height) (head'.getD height') := by
    cases hhead with
    | none => exact hheight
    | some hhead => exact hhead
  exact hlisted.recorded n lane hcarrier hstands

/-! ### Moving loops -/

theorem transferHead (h : f.Mirrors f') {l l' : Loop α} (hl : l.Mirrors l') (target : Needle)
    (laneCount : Nat) {height height' : α} (hheight : Same height height') :
    List.Forall₂ Point.Level (f.transferHead l target laneCount height)
      (f'.transferHead l' target.mirror laneCount height') := by
  unfold Fabric.transferHead
  rw [h.geometry, hl.carrier]
  exact List.rel_map (fun p p' hp => Point.Level.sub hp _)
    (f.geometry.level_stitchBox _ _ target.bed_mirror _ hheight hheight)

theorem moveRow (h : f.Mirrors f') (source target : Needle) (laneCount : Nat) {height height' : α}
    (hheight : Same height height') (k : Held) :
    (f.moveRow source target laneCount height k).1.Mirrors
      (f'.moveRow source.mirror target.mirror laneCount height' k).1 := by
  have hslot := h.store.slot? k.lane k.row source
  have hcleared := h.store.modifyRow k.lane k.row fun r r' hr => hr.clear source
  unfold Fabric.moveRow
  generalize (f.store.row? k.lane k.row).bind (·.slot? source) = loops at hslot
  generalize (f'.store.row? k.lane k.row).bind (·.slot? source.mirror) = loops' at hslot
  cases hslot with
  | none => exact h
  | some hloops =>
    cases hloops with
    | nil => exact h.withStore hcleared
    | cons hfirst hrest =>
      have hhead := h.transferHead hfirst target laneCount hheight
      have hmoved := List.rel_map (R := Loop.Mirrors) (fun l l' hl => hl.withHead hhead)
        (.cons hfirst hrest)
      dsimp only
      rw [hfirst.direction]
      refine (h.withStore (hcleared.modifyPath k.lane fun p p' hp => ?_)).addHeld target k
      exact hp.land k.row source target hfirst.directed hmoved

theorem foldl_moveRow {moved moved' : Fabric α × List Event} (h : moved.1.Mirrors moved'.1)
    (source target : Needle) (laneCount : Nat) {height height' : α} (hheight : Same height height')
    (rows : List Held) :
    (rows.foldl (fun (f, events) k =>
      let (f, more) := f.moveRow source target laneCount height k
      (f, events ++ more)) moved).1.Mirrors
    (rows.foldl (fun (f, events) k =>
      let (f, more) := f.moveRow source.mirror target.mirror laneCount height' k
      (f, events ++ more)) moved').1 := by
  induction rows generalizing moved moved' with
  | nil => exact h
  | cons k rows ih => exact ih (h.moveRow source target laneCount hheight k)

/-- A transfer warns with its image, or both move what they find. -/
theorem transfer (h : f.Mirrors f') (source target : Needle) (laneCount : Nat) :
    (f.transfer source target laneCount = .error (.emptyTransfer source) ∧
        f'.transfer source.mirror target.mirror laneCount =
          .error (.emptyTransfer source.mirror)) ∨
      ∃ moved moved', f.transfer source target laneCount = .ok moved ∧
        f'.transfer source.mirror target.mirror laneCount = .ok moved' ∧
        moved.1.Mirrors moved'.1 := by
  have hsource := h.baseHeight? source
  have htarget := h.baseHeight? target
  unfold Fabric.transfer
  rw [h.heldAt]
  generalize f.baseHeight? source = height at hsource
  generalize f'.baseHeight? source.mirror = height' at hsource
  cases hsource with
  | none => exact .inl ⟨rfl, rfl⟩
  | @some height height' hsource =>
    refine .inr ⟨_, _, rfl, rfl, (h.clearHeld source).foldl_moveRow source target laneCount ?_ _⟩
    generalize f.baseHeight? target = top at htarget
    generalize f'.baseHeight? target.mirror = top' at htarget
    cases htarget with
    | none => exact hsource
    | some htarget => exact htarget

/-! ### Calls -/

/-- A call keeps the image of a fabric its image, if the image of the call is made there. -/
theorem apply (h : f.Mirrors f') (op : Operation) (hop : op.IsDirected) :
    (f.apply op).Mirrors (f'.apply op.mirror) := by
  cases op with
  | stitch knit direction n lane =>
    rw [Operation.mirror, apply_stitch, apply_stitch]
    exact h.place hop n lane (h.stitchBase knit n) (h.stitchHead? knit n) knit
  | transfer source target laneCount =>
    dsimp only [Operation.mirror, Fabric.apply]
    rcases h.transfer source target laneCount with
      ⟨hempty, hempty'⟩ | ⟨moved, moved', hok, hok', hm⟩
    · rw [hempty, hempty']
      exact h
    · rw [hok, hok']
      exact hm
  | drop n =>
    dsimp only [Operation.mirror, Fabric.apply]
    rcases h.drop n with ⟨hempty, hempty'⟩ | ⟨dropped, dropped', hok, hok', hd⟩
    · rw [hempty, hempty']
      exact h
    · rw [hok, hok']
      exact hd

end Heights

end Fabric.Mirrors

end Knitting
