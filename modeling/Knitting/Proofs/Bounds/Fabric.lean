import Knitting.Proofs.Bounds.Height
import Knitting.Proofs.Bounds.Yarn
import Knitting.Proofs.Fabric.Effect

set_option autoImplicit false

/-! # Attempts on the fabric

A stitch reads and writes the last loop of its lane and the heights on the way from there, draws its
outline, which may take over part of another, and puts the loop in a row that it may have to open. A
transfer draws heads anew. In a fabric whose last loops are at needles of the machine
(`Fabric.Within`) all of that comes to what it should, unless memory gives out
(`Fabric.comes_tryPlace`, `Fabric.comes_tryTransfer`). -/

namespace Knitting

variable {α : Type}

/-! ## Stores -/

namespace YarnStore

def tryModifyPath (s : YarnStore α) (lane : Nat) (f : YarnPath α → Attempt (YarnPath α)) :
    Attempt (YarnStore α) := do
  let p ← f (s.path lane)
  return s.modifyPath lane fun _ => p

/-- A store each of whose paths is within bounds. -/
def Within (room : Nat) (s : YarnStore α) : Prop := ∀ c, (s.path c).Within room

theorem Within.modifyPath {room : Nat} {s : YarnStore α} (hs : s.Within room) {lane : Nat}
    {f : YarnPath α → YarnPath α} (hf : (f (s.path lane)).Within room) :
    (s.modifyPath lane f).Within room := by
  intro c
  rw [path_modifyPath]
  split
  · exact hf
  · exact hs c

theorem comes_tryModifyPath (s : YarnStore α) {lane : Nat}
    {f : Nat → YarnPath α → Attempt (YarnPath α)} {g : YarnPath α → YarnPath α}
    (hf : Attempt.Comes (s.path lane).Within (fun room => f room (s.path lane))
      (g (s.path lane)) (g (s.path lane)).Within) :
    Attempt.Comes s.Within (fun room => s.tryModifyPath lane (f room)) (s.modifyPath lane g)
      (s.modifyPath lane g).Within := by
  refine (hf.of fun room hs => hs lane).bind ?_
  exact Attempt.comes_ok fun room h => h.1.modifyPath h.2

/-- A change of one row keeps the bounds. -/
theorem Within.modifyRow {room : Nat} {s : YarnStore α} (hs : s.Within room) (lane row : Nat)
    (f : Row α → Row α) : (s.modifyRow lane row f).Within room := by
  unfold YarnStore.modifyRow
  split
  · exact hs
  · exact hs.modifyPath ⟨by simpa using (hs lane).rows, (hs lane).last⟩

end YarnStore

namespace Fabric

/-- A fabric with no more rows than there is room for, whose last loops are at needles of the
machine. -/
def Within (room : Nat) (f : Fabric α) : Prop := f.store.Within room

theorem within_empty (room : Nat) (g : Geometry α) : (empty g).Within room :=
  fun _ => YarnPath.within_empty room

variable {room : Nat} {f : Fabric α} {lane : Lane}

/-- A tail is that of the last loop of its lane. -/
theorem last_of_tail? {c : Nat} {place : LoopPlace} {tail : α}
    (h : f.tail? c = some (place, tail)) :
    (f.store.path c).last = some place ∧ ∃ l, (f.store.path c).lastLoop? = some l := by
  simp only [tail?, Option.bind_eq_bind, Option.bind_eq_some_iff] at h
  obtain ⟨path, hpath, place', hlast, l, hl, point, -, hsome⟩ := h
  obtain ⟨rfl, -⟩ := Prod.mk.inj (Option.some.inj hsome)
  rw [YarnStore.path, hpath]
  exact ⟨hlast, l, hl⟩

/-! ## Reaching a stitch -/

variable [Scalar α]

open Scalar

def tryClearCrossed (room : Nat) (f : Fabric α) (height : α) (n : Needle) (lane : Lane) :
    Attempt α := do
  let lanes ← tryCrossedLanes room n lane
  return f.heights.clearLanes height n.index lanes f.geometry.epsilon

theorem tryClearCrossed_eq_ok (hlane : lane.Within room) (f : Fabric α) (height : α) (n : Needle) :
    f.tryClearCrossed room height n lane = .ok (f.clearCrossed height n lane) := by
  rw [tryClearCrossed, tryCrossedLanes_eq_ok hlane]
  rfl

def tryArrival (room : Nat) (f : Fabric α) (lane : Lane) (n : Needle) (place : LoopPlace)
    (tail : α) : Attempt α := do
  let lo := min n.index place.needle.index
  let hi := max n.index place.needle.index
  let highest ← f.heights.tryRangeMax lo hi .rightOf lane.index
  let h ← f.tryClearCrossed room (HeightIndex.lift tail highest f.geometry.epsilon) n lane
  f.tryClearCrossed room h place.needle lane

/-- The ends of a span between two needles are needles. -/
theorem isIndex_ends {a b : Int} (ha : isIndex a = true) (hb : isIndex b = true) :
    isIndex (min a b) = true ∧ isIndex (max a b) = true := by
  simp only [isIndex, Bool.and_eq_true, decide_eq_true_eq] at ha hb ⊢
  omega

theorem tryArrival_eq_ok (hlane : lane.Within room) {n : Needle} (hn : isIndex n.index = true)
    {place : LoopPlace} (hplace : isIndex place.needle.index = true) (f : Fabric α) (tail : α) :
    f.tryArrival room lane n place tail = .ok (f.arrival lane n place tail) := by
  obtain ⟨hlo, hhi⟩ := isIndex_ends hn hplace
  unfold tryArrival
  dsimp only
  rw [HeightIndex.tryRangeMax_eq_ok _ hlo hhi, Attempt.ok_bind, tryClearCrossed_eq_ok hlane,
    Attempt.ok_bind, tryClearCrossed_eq_ok hlane]
  rfl

def tryLeadTo (f : Fabric α) (lane : Lane) (direction : Direction) (n : Needle) (place : LoopPlace)
    (height : α) : Attempt (Fabric α) := do
  let x := f.geometry.boxStart direction n.index + f.geometry.laneOffset direction lane
  let lo := min n.index place.needle.index
  let hi := max n.index place.needle.index
  let store ← f.store.tryModifyPath lane.index fun p =>
    p.tryModifyLastLoop fun l => l.tryEndAt x height
  let heights ← f.heights.tryRaiseRange lo hi .rightOf lane.index height
  return { f with store, heights }

theorem tryLeadTo_eq_ok {l : Loop α} (hl : (f.store.path lane.index).lastLoop? = some l)
    {n : Needle} (hn : isIndex n.index = true) {place : LoopPlace}
    (hplace : isIndex place.needle.index = true) (direction : Direction) (height : α) :
    f.tryLeadTo lane direction n place height = .ok (f.leadTo lane direction n place height) := by
  obtain ⟨hlo, hhi⟩ := isIndex_ends hn hplace
  unfold tryLeadTo YarnStore.tryModifyPath
  dsimp only
  rw [YarnPath.tryModifyLastLoop_eq_ok (g := fun l => l.endAt
    (f.geometry.boxStart direction n.index + f.geometry.laneOffset direction lane) height)
    hl (l.tryEndAt_eq_ok _ _), Attempt.ok_bind, pure_bind,
    HeightIndex.tryRaiseRange_eq_ok _ hlo hhi]
  rfl

def tryReach (room : Nat) (f : Fabric α) (lane : Lane) (direction : Direction) (n : Needle)
    (height : α) : Attempt (Fabric α × α) :=
  match f.tail? lane.index with
  | none => do
    let arrives ← f.tryClearCrossed room height n lane
    return (f, arrives)
  | some (place, tail) => do
    let arrives ← f.tryArrival room lane n place tail
    let led ← f.tryLeadTo lane direction n place arrives
    return (led, arrives)

theorem tryReach_eq_ok (hf : f.Within room) (hlane : lane.Within room) (direction : Direction)
    {n : Needle} (hn : isIndex n.index = true) (height : α) :
    f.tryReach room lane direction n height = .ok (f.reach lane direction n height) := by
  unfold tryReach reach
  cases htail : f.tail? lane.index with
  | none =>
    dsimp only
    rw [tryClearCrossed_eq_ok hlane]
    rfl
  | some found =>
    obtain ⟨place, tail⟩ := found
    obtain ⟨hlast, l, hl⟩ := last_of_tail? htail
    have hplace := (hf lane.index).last place hlast
    dsimp only
    rw [tryArrival_eq_ok hlane hn hplace, Attempt.ok_bind, tryLeadTo_eq_ok hl hn hplace]
    rfl

/-- Leading a loop somewhere opens no row and moves no loop. -/
theorem Within.reach (hf : f.Within room) (lane : Lane) (direction : Direction) (n : Needle)
    (height : α) : (f.reach lane direction n height).1.Within room := by
  unfold Fabric.reach
  split
  · exact hf
  · refine YarnStore.Within.modifyPath hf ⟨?_, ?_⟩
    · rw [YarnPath.length_modifyLastLoop]
      exact (hf lane.index).rows
    · rw [YarnPath.last_modifyLastLoop]
      exact (hf lane.index).last

/-! ## Stitches -/

def tryOutline (g : Geometry α) (spec : StitchSpec α) (head : Option α) :
    Attempt (List (Point α)) :=
  let points := g.stitchBox spec
  match head with
  | none => return points
  | some height => do
    let lifted ← Attempt.slice (g.stitchBox { spec with height }) 4 12
    Attempt.putSlice points 4 12 lifted

omit [Scalar α] in
/-- The part of one outline that is taken over from another is there in both. -/
theorem putSlice_head {points lifted : List (Point α)} (hpoints : points.length = loopPoints)
    (hlifted : lifted.length = loopPoints) :
    (Attempt.slice lifted 4 12 >>= Attempt.putSlice points 4 12) =
      .ok ((points.zip lifted).mapIdx fun i (p, q) => if inKnitHead i then q else p) := by
  have hlong : 12 ≤ points.length ∧ 12 ≤ lifted.length := by
    rw [hpoints, hlifted, loopPoints]
    omega
  have hsame : points.length = lifted.length := hpoints.trans hlifted.symm
  rw [Attempt.slice_eq_ok (by omega) hlong.2, Attempt.ok_bind,
    Attempt.putSlice_eq_ok (by omega) hlong.1 (by simp; omega)]
  refine congrArg Except.ok (List.ext_getElem (by simp; omega) ?_)
  intro i hi hi'
  simp only [List.getElem_mapIdx, List.getElem_zip, inKnitHead, Bool.and_eq_true,
    decide_eq_true_eq, List.append_assoc]
  rcases Nat.lt_or_ge i 4 with hlow | hlow
  · rw [List.getElem_append_left (by simp; omega), if_neg (by omega), List.getElem_take]
  · rw [List.getElem_append_right (by simp; omega)]
    rcases Nat.lt_or_ge i 12 with hhigh | hhigh
    · rw [List.getElem_append_left (by simp; omega), if_pos (by omega)]
      simp only [List.getElem_take, List.getElem_drop, List.length_take]
      congr 1
      omega
    · rw [List.getElem_append_right (by simp; omega), if_neg (by omega)]
      simp only [List.getElem_drop, List.length_take, List.length_drop]
      congr 1
      omega

theorem tryOutline_eq_ok (g : Geometry α) (spec : StitchSpec α) (head : Option α) :
    tryOutline g spec head = .ok (outline g spec head) := by
  cases head with
  | none => rfl
  | some height => exact putSlice_head (g.length_stitchBox _) (g.length_stitchBox _)

/-- The top of the head is among the points of an outline. -/
theorem headTop_outline (g : Geometry α) (spec : StitchSpec α) (head : Option α) :
    ∃ p, (outline g spec head)[headTop]? = some p ∧ p.y = g.headHeight (head.getD spec.height) := by
  obtain ⟨p, hp, hy⟩ := Option.map_eq_some_iff.1 (g.stitchBox_headTop spec)
  cases head with
  | none => exact ⟨p, hp, hy⟩
  | some height =>
    obtain ⟨q, hq, hy⟩ := Option.map_eq_some_iff.1 (g.stitchBox_headTop { spec with height })
    have hboth : ((g.stitchBox spec).zip (g.stitchBox { spec with height }))[headTop]? =
        some (p, q) := List.getElem?_zip_eq_some.2 ⟨hp, hq⟩
    refine ⟨q, ?_, hy⟩
    rw [outline, List.getElem?_mapIdx, hboth]
    rfl

def tryPlace (room : Nat) (f : Fabric α) (direction : Direction) (n : Needle) (lane : Lane)
    (height : α) (head : Option α) (knit : Bool) : Attempt (Fabric α × LoopPlace) := do
  let row ← (f.store.path lane.index).tryNextRow room direction n knit
  let (f, carrierHeight) ← f.tryReach room lane direction n height
  let points ← tryOutline f.geometry ⟨direction, n, lane, height, carrierHeight⟩ head
  let top ← Attempt.entry points headTop
  let l : Loop α := ⟨points, lane.index, direction⟩
  let store ← f.store.tryModifyPath lane.index fun p => p.tryAddLoop room row n knit l
  let f := { f with store }
  let f := if knit then f.setHeld n ⟨lane.index, row⟩ else f.addHeld n ⟨lane.index, row⟩
  let heights := f.heights.raise (.place n.index .corridor lane.index) carrierHeight
  let heights := heights.raise (.place n.index (.ofSide n.bed.side) lane.index) top.y
  return ({ f with heights }, ⟨row, n⟩)

omit [Scalar α] in
/-- Listing a row at a needle changes no yarn. -/
theorem store_record (f : Fabric α) (n : Needle) (h : Held) (knit : Bool) :
    (if knit then f.setHeld n h else f.addHeld n h).store = f.store := by
  split
  · rfl
  · exact store_addHeld f n h

omit [Scalar α] in
theorem geometry_record (f : Fabric α) (n : Needle) (h : Held) (knit : Bool) :
    (if knit then f.setHeld n h else f.addHeld n h).geometry = f.geometry := by
  split
  · rfl
  · unfold addHeld
    split <;> rfl

/-- A fabric within bounds and a lane whose number has a next one. -/
structure Reaches (room : Nat) (f : Fabric α) (lane : Lane) : Prop where
  fabric : f.Within room
  lane : lane.Within room

theorem comes_tryPlace (f : Fabric α) (lane : Lane) (direction : Direction) {n : Needle}
    (hn : isIndex n.index = true) (height : α) (head : Option α) (knit : Bool) :
    Attempt.Comes (fun room => f.Reaches room lane)
      (fun room => f.tryPlace room direction n lane height head knit)
      (f.place direction n lane height head knit)
      (f.place direction n lane height head knit).1.Within := by
  unfold tryPlace place
  have hreached := fun room (h : f.Within room) => h.reach lane direction n height
  refine Attempt.Comes.after ?_ fun room h =>
    YarnPath.tryNextRow_eq_ok (h.fabric lane.index).rows direction n knit
  refine Attempt.Comes.after ?_ fun room h =>
    tryReach_eq_ok h.fabric h.lane direction hn height
  generalize f.reach lane direction n height = r at hreached ⊢
  obtain ⟨reached, carrierHeight⟩ := r
  dsimp only at hreached ⊢
  refine Attempt.Comes.after ?_ fun room _ => tryOutline_eq_ok ..
  obtain ⟨top, hentry, htop⟩ := headTop_outline reached.geometry
    ⟨direction, n, lane, height, carrierHeight⟩ head
  refine Attempt.Comes.after ?_ fun room _ => Attempt.entry_eq_ok hentry
  rw [htop]
  let row := (f.store.path lane.index).nextRow direction n knit
  let l : Loop α := ⟨outline reached.geometry ⟨direction, n, lane, height, carrierHeight⟩ head,
    lane.index, direction⟩
  have hadded := (YarnPath.comes_tryAddLoop (reached.store.path lane.index) row hn knit l).of
    fun room (h : (reached.store.path lane.index).Within room) => h.rows
  refine ((YarnStore.comes_tryModifyPath (g := fun p => p.addLoop row n knit l) reached.store
    hadded).of fun room h => hreached room h.fabric).bind ?_
  simp only [geometry_record]
  refine Attempt.comes_ok ?_
  rintro room ⟨-, hstore⟩
  have hrecord := store_record (f := { reached with
    store := reached.store.modifyPath lane.index fun p => p.addLoop row n knit l }) n
    ⟨lane.index, row⟩ knit
  exact (congrArg (YarnStore.Within room) hrecord).mpr hstore

def tryKnit (room : Nat) (f : Fabric α) (direction : Direction) (n : Needle) (lane : Lane) :
    Attempt (Fabric α × LoopPlace) :=
  let top := f.neighbourHeight n
  let bottom := match f.baseHeight? n with
    | some h => h + f.geometry.boxSpacing
    | none => top
  f.tryPlace room direction n lane bottom (if lt bottom top then some top else none) true

theorem comes_tryKnit (f : Fabric α) (lane : Lane) (direction : Direction) {n : Needle}
    (hn : isIndex n.index = true) :
    Attempt.Comes (fun room => f.Reaches room lane) (fun room => f.tryKnit room direction n lane)
      (f.knit direction n lane) (f.knit direction n lane).1.Within :=
  comes_tryPlace f lane direction hn _ _ true

def tryTuck (room : Nat) (f : Fabric α) (direction : Direction) (n : Needle) (lane : Lane) :
    Attempt (Fabric α × LoopPlace) :=
  let height := (f.baseHeight? n).getD (f.neighbourHeight n)
  f.tryPlace room direction n lane height none false

theorem comes_tryTuck (f : Fabric α) (lane : Lane) (direction : Direction) {n : Needle}
    (hn : isIndex n.index = true) :
    Attempt.Comes (fun room => f.Reaches room lane) (fun room => f.tryTuck room direction n lane)
      (f.tuck direction n lane) (f.tuck direction n lane).1.Within :=
  comes_tryPlace f lane direction hn _ none false

/-! ## Moving loops -/

def tryMoveRow (room : Nat) (f : Fabric α) (source target : Needle) (laneCount : Nat) (height : α)
    (h : Held) : Attempt (Fabric α × List Event) :=
  match (f.store.row? h.lane h.row).bind (·.slot? source) with
  | none => return (f, [])
  | some loops =>
    let cleared := f.store.modifyRow h.lane h.row fun r => r.clear source
    match loops with
    | [] => return ({ f with store := cleared }, [])
    | first :: _ => do
      let head := f.transferHead first target laneCount height
      let moved ← loops.mapM fun l => l.tryWithHead head
      let store ← cleared.tryModifyPath h.lane fun p =>
        p.tryLand room h.row source target first.direction moved
      return (({ f with store }).addHeld target h,
        [.moved loops.length h.lane h.row source target])

theorem comes_tryMoveRow (f : Fabric α) (source : Needle) {target : Needle}
    (htarget : isIndex target.index = true) (laneCount : Nat) (height : α) (h : Held) :
    Attempt.Comes f.Within (fun room => f.tryMoveRow room source target laneCount height h)
      (f.moveRow source target laneCount height h)
      (f.moveRow source target laneCount height h).1.Within := by
  unfold tryMoveRow moveRow
  have hcleared := fun room (hf : f.Within room) =>
    YarnStore.Within.modifyRow hf h.lane h.row fun r => r.clear source
  cases (f.store.row? h.lane h.row).bind (·.slot? source) with
  | none => exact Attempt.comes_ok fun _ => id
  | some loops =>
    cases loops with
    | nil => exact Attempt.comes_ok hcleared
    | cons first rest =>
      have hhead : (f.transferHead first target laneCount height).length = loopPoints := by
        rw [transferHead, List.length_map, Geometry.length_stitchBox]
      dsimp only
      refine Attempt.Comes.after ?_ fun room _ =>
        Attempt.mapM_eq_ok fun l _ => l.tryWithHead_eq_ok hhead
      let moved := (first :: rest).map fun l =>
        l.withHead (f.transferHead first target laneCount height)
      let cleared := f.store.modifyRow h.lane h.row fun r => r.clear source
      have hlanded := YarnPath.comes_tryLand (cleared.path h.lane) h.row source htarget
        first.direction moved
      refine ((YarnStore.comes_tryModifyPath (g := fun p =>
        p.land h.row source target first.direction moved) cleared hlanded).of hcleared).bind ?_
      refine Attempt.comes_ok ?_
      rintro room ⟨-, hstore⟩
      rw [Within, store_addHeld]
      exact hstore

def tryTransfer (room : Nat) (f : Fabric α) (source target : Needle) (laneCount : Nat) :
    Attempt (Except Warning (Fabric α × List Event)) :=
  match f.baseHeight? source with
  | none => return .error (.emptyTransfer source)
  | some sourceHeight => do
    let height := (f.baseHeight? target).getD sourceHeight
    let moved ← (f.heldAt source).foldlM (fun (s : Fabric α × List Event) h => do
      let (f, more) ← s.1.tryMoveRow room source target laneCount height h
      return (f, s.2 ++ more)) (f.clearHeld source, [])
    return .ok moved

theorem comes_tryTransfer (f : Fabric α) (source : Needle) {target : Needle}
    (htarget : isIndex target.index = true) (laneCount : Nat) :
    Attempt.Comes f.Within (fun room => f.tryTransfer room source target laneCount)
      (f.transfer source target laneCount)
      (fun room => ∀ moved, f.transfer source target laneCount = .ok moved →
        moved.1.Within room) := by
  unfold tryTransfer transfer
  cases f.baseHeight? source with
  | none => exact Attempt.comes_ok fun _ _ => nofun
  | some sourceHeight =>
    dsimp only
    let height := (f.baseHeight? target).getD sourceHeight
    have hcleared : ∀ room, f.Within room → (f.clearHeld source).Within room := fun _ => id
    refine ((Attempt.comes_foldlM (g := fun (s : Fabric α × List Event) h =>
      ((s.1.moveRow source target laneCount height h).1,
        s.2 ++ (s.1.moveRow source target laneCount height h).2))
      (fun s => s.1.Within) ?_ (f.clearHeld source, [])).of hcleared).bind ?_
    · intro s h _
      refine (comes_tryMoveRow s.1 source htarget laneCount height h).bind ?_
      exact Attempt.comes_ok fun _ => And.right
    · refine Attempt.comes_ok ?_
      rintro room ⟨-, hmoved⟩ _ ⟨⟩
      exact hmoved

end Fabric

end Knitting
