import Knitting.Proofs.Bounds.Attempt
import Knitting.Yarn.Store

set_option autoImplicit false

/-! # Attempts on the yarn

The points of a loop are reached by their places from either end, and the rows of a path by their
numbers. A loop too short to be led anywhere is not touched, the head of a stitch has all the points
that a transfer draws anew, and a row is there before anything is put in it. So none of this goes
wrong, except that memory gives out where a row is opened (`YarnPath.comes_tryOpenRow`). -/

namespace Knitting

variable {α : Type}

/-! ## Points of loops -/

namespace Loop

def tryEndAt (l : Loop α) (x y : α) : Attempt (Loop α) :=
  let n := l.points.length
  if 3 ≤ n then do
    let i ← Attempt.less n 1
    let p ← Attempt.entry l.points i
    let points ← Attempt.put l.points i { p with x }
    let first ← Attempt.less n 3
    let tail ← Attempt.slice points first n
    let points ← Attempt.putSlice points first n (tail.map fun p => { p with y })
    return { l with points }
  else return l

theorem tryEndAt_eq_ok (l : Loop α) (x y : α) : l.tryEndAt x y = .ok (l.endAt x y) := by
  unfold tryEndAt endAt
  dsimp only
  by_cases h : 3 ≤ l.points.length
  · rw [if_pos h, if_neg (Nat.not_lt.2 h)]
    set n := l.points.length with hn
    have hend : n - 1 < l.points.length := by omega
    have hfirst : n - 3 ≤ n := Nat.sub_le n 3
    have hlength : (l.points.set (n - 1) { l.points[n - 1] with x }).length = n := List.length_set
    rw [Attempt.less_eq_ok (by omega), Attempt.ok_bind,
      Attempt.entry_eq_ok (List.getElem?_eq_getElem hend), Attempt.ok_bind,
      Attempt.put_eq_ok hend, Attempt.ok_bind, Attempt.less_eq_ok h, Attempt.ok_bind,
      Attempt.slice_eq_ok hfirst (Nat.le_of_eq hlength.symm), Attempt.ok_bind,
      Attempt.putSlice_eq_ok hfirst (Nat.le_of_eq hlength.symm) (by simp; omega),
      Attempt.ok_bind]
    dsimp only [pure, Except.pure]
    congr 2
    rw [List.drop_eq_nil_of_le (Nat.le_of_eq hlength), List.append_nil]
    refine List.ext_getElem (by simp; omega) ?_
    intro i hi hi'
    by_cases htail : i < n - 3
    · have hnext : ¬i + 1 = n := by omega
      have hlow : ¬n ≤ i + 3 := by omega
      rw [List.getElem_append_left (by simp; omega)]
      simp only [List.getElem_take, List.getElem_mapIdx, if_neg hnext, if_neg hlow]
      exact List.getElem_set_ne (by omega) _
    · have hhigh : n ≤ i + 3 := by omega
      have hi : n - 3 + (i - (n - 3)) = i := by omega
      rw [List.getElem_append_right (by simp; omega)]
      simp only [List.getElem_map, List.getElem_take, List.getElem_drop, List.getElem_mapIdx,
        List.length_take, hlength, Nat.min_eq_left hfirst, hi, if_pos hhigh]
      by_cases hlast : i + 1 = n
      · obtain rfl : i = n - 1 := by omega
        simp [hlast]
      · simp only [if_neg hlast]
        rw [List.getElem_set_ne (by omega)]
  · rw [if_neg h, if_pos (Nat.lt_of_not_le h)]
    rfl

/-- Takes the points at some places from those of a head, where both have them. -/
def takeHead (head points : List (Point α)) (places : List Nat) : List (Point α) :=
  places.foldl (fun points i => points.modify i fun p => (head[i]?).getD p) points

theorem getElem?_takeHead (head points : List (Point α)) (places : List Nat) (j : Nat) :
    (takeHead head points places)[j]? =
      if j ∈ places then (points[j]?).map fun p => (head[j]?).getD p else points[j]? := by
  induction places generalizing points with
  | nil => simp [takeHead]
  | cons i places ih =>
    have hstep : takeHead head points (i :: places) =
        takeHead head (points.modify i fun p => (head[i]?).getD p) places := rfl
    rw [hstep, ih, List.getElem?_modify]
    by_cases hij : i = j
    · subst hij
      cases hp : points[i]? with
      | none => simp
      | some p => cases hhead : head[i]? <;> simp
    · simp [hij, Ne.symm hij]

def tryWithHead (l : Loop α) (head : List (Point α)) : Attempt (Loop α) := do
  let points ← (List.range' 5 6).foldlM (fun points i =>
    match points[i]? with
    | none => return points
    | some _ => do
      let p ← Attempt.entry head i
      Attempt.put points i p) l.points
  return { l with points }

/-- A head that has all of its points can be drawn. -/
theorem tryWithHead_eq_ok (l : Loop α) {head : List (Point α)} (hhead : head.length = loopPoints) :
    l.tryWithHead head = .ok (l.withHead head) := by
  have hstep : ∀ points : List (Point α), ∀ i ∈ List.range' 5 6,
      (match points[i]? with
        | none => return points
        | some _ => do
          let p ← Attempt.entry head i
          Attempt.put points i p : Attempt (List (Point α))) =
        .ok (points.modify i fun p => (head[i]?).getD p) := by
    intro points i hi
    have hi : i < head.length := by
      rw [List.mem_range'_1] at hi
      rw [hhead, loopPoints]
      omega
    cases hp : points[i]? with
    | none =>
      have hout : points.length ≤ i := List.getElem?_eq_none_iff.1 hp
      rw [List.modify_eq_self hout]
      rfl
    | some p =>
      obtain ⟨hlt, rfl⟩ := List.getElem?_eq_some_iff.1 hp
      rw [Attempt.entry_eq_ok (List.getElem?_eq_getElem hi), Attempt.ok_bind,
        Attempt.put_eq_ok hlt, List.modify_eq_set_getElem?, hp, List.getElem?_eq_getElem hi]
      rfl
  have hpoints : takeHead head l.points (List.range' 5 6) = (l.withHead head).points := by
    refine List.ext_getElem? ?_
    intro j
    rw [getElem?_takeHead, withHead, List.getElem?_mapIdx]
    by_cases hj : j ∈ List.range' 5 6
    · have hin : inTransferHead j = true := by
        rw [List.mem_range'_1] at hj
        simp only [inTransferHead, Bool.and_eq_true, decide_eq_true_eq]
        omega
      simp only [if_pos hj, hin, if_true]
    · have hout : inTransferHead j = false := by
        rw [List.mem_range'_1] at hj
        simp only [inTransferHead, Bool.and_eq_false_iff, decide_eq_false_iff_not]
        omega
      simp [hj, hout]
  unfold tryWithHead
  rw [Attempt.foldlM_eq_ok hstep]
  exact congrArg (fun points => Except.ok { l with points }) hpoints

end Loop

/-! ## Rows of paths -/

namespace YarnPath

/-- A path with no more rows than there is room for, whose last loop is at a needle of the
machine. -/
structure Within (room : Nat) (p : YarnPath α) : Prop where
  rows : p.rows.length ≤ room
  last : ∀ place, p.last = some place → isIndex place.needle.index = true

theorem within_empty (room : Nat) : (empty : YarnPath α).Within room := ⟨Nat.zero_le room, nofun⟩

def tryNextRow (room : Nat) (p : YarnPath α) (direction : Direction) (n : Needle) (knit : Bool) :
    Attempt Nat :=
  if p.rows.length = 0 then return 0
  else do
    let current ← Attempt.less p.rows.length 1
    let row ← Attempt.entry p.rows current
    if row.direction ≠ direction || (knit && row.holds n) then Attempt.count room (current + 1)
    else return current

theorem tryNextRow_eq_ok {room : Nat} {p : YarnPath α} (hp : p.rows.length ≤ room)
    (direction : Direction) (n : Needle) (knit : Bool) :
    p.tryNextRow room direction n knit = .ok (p.nextRow direction n knit) := by
  unfold tryNextRow nextRow
  by_cases hempty : p.rows.length = 0
  · rw [if_pos hempty, List.length_eq_zero_iff.1 hempty]
    rfl
  · have hrow : p.rows[p.rows.length - 1]? = p.rows.getLast? := List.getLast?_eq_getElem?.symm
    obtain ⟨row, hlast⟩ : ∃ row, p.rows.getLast? = some row :=
      ⟨_, List.getLast?_eq_getLast_of_ne_nil (by simpa using hempty)⟩
    rw [if_neg hempty, Attempt.less_eq_ok (by omega), Attempt.ok_bind,
      Attempt.entry_eq_ok (hrow.trans hlast), Attempt.ok_bind, hlast]
    dsimp only
    split
    · rw [Attempt.count_eq_ok (by omega), Nat.sub_add_cancel (by omega)]
    · rfl

/-- Opens rows until there is one of the number `i`, which can then be reached. -/
def tryOpenRow (room : Nat) (p : YarnPath α) (i : Nat) (direction : Direction) :
    Attempt (YarnPath α) := do
  let rows ← (List.replicate (i + 1 - p.rows.length) (Row.empty direction)).foldlM
    (Attempt.push room) p.rows
  let _ ← Attempt.entry rows i
  return { p with rows }

theorem comes_tryOpenRow (p : YarnPath α) (i : Nat) (direction : Direction) :
    Attempt.Comes (fun room => p.rows.length ≤ room) (fun room => p.tryOpenRow room i direction)
      (p.openRow i direction) (fun room => (p.openRow i direction).rows.length ≤ room) := by
  have hrow : i < (p.openRow i direction).rows.length := by
    simp only [openRow, List.length_append, List.length_replicate]
    omega
  refine (Attempt.comes_foldlM_push p.rows _).bind ?_
  refine Attempt.Comes.after ?_ fun room _ =>
    Attempt.entry_eq_ok (List.getElem?_eq_getElem hrow)
  exact Attempt.comes_ok fun _ => And.right

def tryAddLoop (room : Nat) (p : YarnPath α) (i : Nat) (n : Needle) (knit : Bool) (l : Loop α) :
    Attempt (YarnPath α) := do
  let opened ← p.tryOpenRow room i l.direction
  return { opened.modifyRow i fun row => if knit then row.replace n l else row.extend n [l] with
    last := some ⟨i, n⟩ }

theorem comes_tryAddLoop (p : YarnPath α) (i : Nat) {n : Needle} (hn : isIndex n.index = true)
    (knit : Bool) (l : Loop α) :
    Attempt.Comes (fun room => p.rows.length ≤ room) (fun room => p.tryAddLoop room i n knit l)
      (p.addLoop i n knit l) (p.addLoop i n knit l).Within := by
  refine (comes_tryOpenRow p i l.direction).bind ?_
  refine Attempt.comes_ok ?_
  rintro room ⟨-, hrows⟩
  refine ⟨?_, ?_⟩
  · simpa only [addLoop, length_modifyRow] using hrows
  · intro place hplace
    obtain rfl := Option.some.inj hplace
    exact hn

def tryLand (room : Nat) (p : YarnPath α) (i : Nat) (source target : Needle)
    (direction : Direction) (loops : List (Loop α)) : Attempt (YarnPath α) := do
  let opened ← p.tryOpenRow room i direction
  return { opened.modifyRow i fun row => row.extend target loops with
    last := p.last.map fun last => if last = ⟨i, source⟩ then ⟨i, target⟩ else last }

theorem comes_tryLand (p : YarnPath α) (i : Nat) (source : Needle) {target : Needle}
    (htarget : isIndex target.index = true) (direction : Direction) (loops : List (Loop α)) :
    Attempt.Comes p.Within (fun room => p.tryLand room i source target direction loops)
      (p.land i source target direction loops)
      (p.land i source target direction loops).Within := by
  refine ((comes_tryOpenRow p i direction).of fun room h => h.rows).bind ?_
  refine Attempt.comes_ok ?_
  rintro room ⟨hp, hrows⟩
  refine ⟨?_, ?_⟩
  · simpa only [land, length_modifyRow] using hrows
  · intro place hplace
    obtain ⟨last, hlast, rfl⟩ := Option.map_eq_some_iff.1 hplace
    split
    · exact htarget
    · exact hp.last last hlast

/-- Changes the last loop of a path, if it has one. -/
def tryModifyLastLoop (p : YarnPath α) (f : Loop α → Attempt (Loop α)) : Attempt (YarnPath α) :=
  match p.lastLoop? with
  | none => return p
  | some l => do
    let changed ← f l
    return p.modifyLastLoop fun _ => changed

/-- A change of the entry at a place depends on that entry only. -/
theorem modify_congr {β : Type} {l : List β} {i : Nat} {f g : β → β}
    (h : ∀ b, l[i]? = some b → f b = g b) : l.modify i f = l.modify i g := by
  refine List.ext_getElem? ?_
  intro j
  rw [List.getElem?_modify, List.getElem?_modify]
  by_cases hij : i = j
  · subst hij
    cases hb : l[i]? with
    | none => rfl
    | some b => simp [h b hb]
  · simp [hij]

theorem tryModifyLastLoop_eq_ok {p : YarnPath α} {l : Loop α} (hl : p.lastLoop? = some l)
    {f : Loop α → Attempt (Loop α)} {g : Loop α → Loop α} (hf : f l = .ok (g l)) :
    p.tryModifyLastLoop f = .ok (p.modifyLastLoop g) := by
  have hsame : p.modifyLastLoop (fun _ => g l) = p.modifyLastLoop g := by
    unfold lastLoop? at hl
    unfold modifyLastLoop
    cases hlast : p.last with
    | none => rfl
    | some place =>
      refine congrArg (YarnPath.mk · _) (modify_congr ?_)
      intro row hrow
      cases hslot : row.slot? place.needle with
      | none => rfl
      | some loops =>
        refine congrArg (row.setSlot place.needle) (modify_congr ?_)
        intro l' hl'
        rw [hlast] at hl
        simp only [Option.bind_eq_bind, Option.bind_some, hrow, hslot,
          List.getLast?_eq_getElem?] at hl
        obtain rfl := Option.some.inj (hl'.symm.trans hl)
        rfl
  rw [tryModifyLastLoop, hl]
  dsimp only
  rw [hf]
  exact congrArg Except.ok hsame

end YarnPath

end Knitting
