import Knitting.Proofs.Fabric.Ledger
import Mathlib.Data.List.Chain

set_option autoImplicit false

/-! # The yarn of a lane is in one piece

A stitch leads the end of its lane's last loop to where it starts itself. The last loop is found as
the newest at a place that the path remembers, and a transfer that puts other loops of the same row
on that place buries it (`Fabric.Buries`): from then until the lane's next stitch the newest loop at
the place is one of those, and the next stitch would lead that one. So the loop that is led is the
one that was made last exactly when no lane is stitched with that has been buried since its last
stitch, and as long as this is so, each loop of a lane ends where the next one starts. -/

namespace Knitting

variable {α : Type}

/-! ## Where loops meet -/

/-- A loop ends where another one starts, but for the depth. -/
def Loop.Meets (l l' : Loop α) : Prop :=
  ∃ p q, l.points.getLast? = some p ∧ l'.points.head? = some q ∧ p.x = q.x ∧ p.y = q.y

/-- A transfer moves neither the start nor the end of a loop. -/
theorem Loop.Meets.sameYarn {l l' m m' : Loop α} (h : l.Meets l') (hl : l.SameYarn m)
    (hl' : l'.SameYarn m') (hpoints : l.points.length = loopPoints) : m.Meets m' := by
  obtain ⟨p, q, hp, hq, hmeet⟩ := h
  refine ⟨p, q, ?_, ?_, hmeet⟩
  · rw [List.getLast?_eq_getElem?] at hp ⊢
    rw [hl.length, hl.points _ (by rw [hpoints]; decide), hp]
  · rw [List.head?_eq_getElem?] at hq ⊢
    rw [hl'.points 0 (by decide), hq]

theorem Loop.head?_endAt {l : Loop α} (hpoints : l.points.length = loopPoints) (x y : α) :
    (l.endAt x y).points.head? = l.points.head? := by
  rw [List.head?_eq_getElem?, List.head?_eq_getElem?]
  unfold endAt
  simp only [hpoints, loopPoints, show ¬18 < 3 by decide, if_false, List.getElem?_mapIdx]
  cases l.points[0]? <;> simp

theorem Loop.getLast?_endAt {l : Loop α} (hpoints : l.points.length = loopPoints) (x y : α) :
    ∃ p, (l.endAt x y).points.getLast? = some p ∧ p.x = x ∧ p.y = y := by
  have hlast : 17 < l.points.length := by rw [hpoints]; decide
  refine ⟨⟨x, y, (l.points[17]).z⟩, ?_, rfl, rfl⟩
  rw [List.getLast?_eq_getElem?]
  unfold endAt
  simp only [hpoints, loopPoints, show ¬18 < 3 by decide, if_false, List.getElem?_mapIdx,
    List.length_mapIdx]
  rw [List.getElem?_eq_getElem hlast]
  simp

/-! ## The loops of a lane -/

namespace Ledger

/-- The numbers of the loops of a lane in the order in which they were made. -/
def numbersOf (b : Ledger α) (c : Nat) : List Nat :=
  (List.range b.made.length).filter fun i => (b.made[i]?).map (·.carrier) = some c

/-- The loop of one number ends where that of another starts. -/
def Joined (b : Ledger α) (i j : Nat) : Prop :=
  ∃ l l', b.made[i]? = some l ∧ b.made[j]? = some l' ∧ l.Meets l'

theorem mem_numbersOf {b : Ledger α} {c i : Nat} :
    i ∈ b.numbersOf c ↔ ∃ l, b.made[i]? = some l ∧ l.carrier = c := by
  simp only [numbersOf, List.mem_filter, List.mem_range, decide_eq_true_eq,
    Option.map_eq_some_iff]
  refine ⟨And.right, fun h => ⟨?_, h⟩⟩
  obtain ⟨l, hl, -⟩ := h
  exact (List.getElem?_eq_some_iff.1 hl).1

theorem nodup_numbersOf (b : Ledger α) (c : Nat) : (b.numbersOf c).Nodup :=
  List.nodup_range.filter _

/-- A stitch makes a loop of its lane. -/
theorem numbersOf_stitch (b : Ledger α) (tail : Option Nat) (seam : α × α) (row : Held) (n : Needle)
    (l : Loop α) (c : Nat) :
    (b.stitch tail seam row n l).numbersOf c =
      b.numbersOf c ++ if l.carrier = c then [b.made.length] else [] := by
  have hcarrier : ∀ i : Nat, ((b.led tail seam)[i]?).map Loop.carrier =
      (b.made[i]?).map Loop.carrier := by
    intro i
    rw [getElem?_led, Option.map_map]
    congr 1
    funext l
    simp only [Function.comp_apply, Loop.endAt]
    split
    · split <;> rfl
    · rfl
  unfold numbersOf stitch
  simp only [List.length_append, length_led, List.length_singleton, List.range_succ,
    List.filter_append]
  congr 1
  · refine List.filter_congr ?_
    intro i hi
    rw [List.mem_range, ← length_led b tail seam] at hi
    rw [List.getElem?_append_left hi, hcarrier]
  · simp [List.filter_cons]

/-- A stitch leads the loop of number `tail` to itself and leaves the others as they are. -/
theorem getElem?_made_stitch {b : Ledger α} {k : Nat} {l' : Loop α} (hk : b.made[k]? = some l')
    (tail : Option Nat) (seam : α × α) (row : Held) (n : Needle) (l : Loop α) :
    (b.stitch tail seam row n l).made[k]? =
      some (if tail = some k then l'.endAt seam.1 seam.2 else l') := by
  have hlt := (List.getElem?_eq_some_iff.1 hk).1
  rw [← b.length_led tail seam] at hlt
  rw [stitch, List.getElem?_append_left hlt, getElem?_led, hk]
  rfl

theorem getElem?_made_stitch_self (b : Ledger α) (tail : Option Nat) (seam : α × α) (row : Held)
    (n : Needle) (l : Loop α) :
    (b.stitch tail seam row n l).made[b.made.length]? = some l := by
  rw [← b.length_led tail seam]
  exact List.getElem?_concat_length

/-- Loops that meet still do if the first of them is not led to the stitch. -/
theorem Joined.stitch {b : Ledger α} {i j : Nat} (h : b.Joined i j)
    (hpoints : ∀ l, b.made[j]? = some l → l.points.length = loopPoints) {tail : Option Nat}
    (hi : tail ≠ some i) (seam : α × α) (row : Held) (n : Needle) (l : Loop α) :
    (b.stitch tail seam row n l).Joined i j := by
  obtain ⟨l₁, l₂, hl₁, hl₂, p, q, hp, hq, hmeet⟩ := h
  refine ⟨_, _, getElem?_made_stitch hl₁ .., getElem?_made_stitch hl₂ .., p, q, ?_, ?_, hmeet⟩
  · rwa [if_neg hi]
  · split
    · rw [Loop.head?_endAt (hpoints l₂ hl₂), hq]
    · exact hq

/-- The loop that is led to a stitch ends where the stitch starts. -/
theorem joined_stitch_tail {b : Ledger α} {i : Nat} {l' : Loop α} (hl' : b.made[i]? = some l')
    (hpoints : l'.points.length = loopPoints) (seam : α × α) (row : Held) (n : Needle)
    {l : Loop α} {q : Point α} (hq : l.points.head? = some q) (hx : q.x = seam.1)
    (hy : q.y = seam.2) :
    (b.stitch (some i) seam row n l).Joined i b.made.length := by
  obtain ⟨p, hp, hpx, hpy⟩ := Loop.getLast?_endAt hpoints seam.1 seam.2
  refine ⟨_, l, getElem?_made_stitch hl' .., getElem?_made_stitch_self .., p, q, ?_, hq,
    hpx.trans hx.symm, hpy.trans hy.symm⟩
  rwa [if_pos rfl]

end Ledger

namespace Fabric

/-- The loop that the next stitch of a lane would lead to itself is the one that the lane made
last. -/
def LeadsNewest (f : Fabric α) (b : Ledger α) (c : Nat) : Prop :=
  f.tailNumber? b c = (b.numbersOf c).getLast?

/-- The loop that a lane made last is at the place that its path remembers. -/
def Anchored (f : Fabric α) (b : Ledger α) (c : Nat) : Prop :=
  ∀ i, (b.numbersOf c).getLast? = some i →
    ∃ place, (f.store.path c).last = some place ∧ i ∈ b.slot ⟨c, place.row⟩ place.needle

/-- A move of a row puts other loops on the place of the last loop of a lane. -/
def BuriesRow (f : Fabric α) (source target : Needle) (c : Nat) (h : Held) : Prop :=
  source ≠ target ∧ h.lane = c ∧ (f.store.path c).last = some ⟨h.row, target⟩

/-- A call puts other loops on the place of the last loop of a lane. -/
def Buries (f : Fabric α) : Operation → Nat → Prop
  | .transfer source target _, c => ∃ h ∈ f.heldAt source, f.BuriesRow source target c h
  | _, _ => False

theorem tailNumber?_congr {f f' : Fabric α} {b b' : Ledger α} {c : Nat}
    (hpath : (f'.store.path c).last = (f.store.path c).last)
    (hslot : ∀ i n, b'.slot ⟨c, i⟩ n = b.slot ⟨c, i⟩ n) :
    f'.tailNumber? b' c = f.tailNumber? b c := by
  unfold tailNumber?
  rw [hpath]
  simp only [hslot]

variable [Scalar α]

/-! ## A stitch -/

theorem last_place {f : Fabric α} (hf : f.WellFormed) (direction : Direction) (n : Needle)
    (lane : Lane) (height : α) (head : Option α) (knit : Bool) (c : Nat) :
    ((f.place direction n lane height head knit).1.store.path c).last =
      if c = lane.index then some ⟨(f.stitchRow lane direction n knit).row, n⟩
      else (f.store.path c).last := by
  rw [path_place hf.last_eq_none]
  split <;> rfl

/-- The new loop of a stitch is the one that the next stitch of its lane would lead. -/
theorem tailNumber?_stitch {f : Fabric α} (hf : f.WellFormed) (b : Ledger α)
    (direction : Direction) (n : Needle) (lane : Lane) (height : α) (head : Option α)
    (knit : Bool) (tail : Option Nat) (seam : α × α) (l : Loop α) (c : Nat) :
    (f.place direction n lane height head knit).1.tailNumber?
        (b.stitch tail seam (f.stitchRow lane direction n knit) n l) c =
      if c = lane.index then some b.made.length else f.tailNumber? b c := by
  split
  · next hc =>
    have hrow : (⟨c, (f.stitchRow lane direction n knit).row⟩ : Held) =
        f.stitchRow lane direction n knit := by rw [hc]; rfl
    rw [tailNumber?, last_place hf, if_pos hc, Option.bind_some, hrow, Ledger.slot_stitch_self]
    exact List.getLast?_concat
  · next hc =>
    refine tailNumber?_congr (by rw [last_place hf, if_neg hc]) ?_
    intro i m
    exact b.slot_stitch_of_ne _ _ (fun h => hc (congrArg Held.lane h)) n m l

theorem Anchored.stitch {f : Fabric α} (hf : f.WellFormed) {b : Ledger α} {c : Nat}
    (hc : f.Anchored b c) (direction : Direction) (n : Needle) (lane : Lane) (height : α)
    (head : Option α) (knit : Bool) (tail : Option Nat) (seam : α × α) :
    (f.place direction n lane height head knit).1.Anchored
      (b.stitch tail seam (f.stitchRow lane direction n knit) n
        (f.stitchLoop lane direction n height head)) c := by
  intro i hi
  rw [Ledger.numbersOf_stitch] at hi
  rw [last_place hf]
  by_cases hlane : c = lane.index
  · rw [if_pos hlane]
    refine ⟨_, rfl, Ledger.mem_slot_stitch.2 (.inr ⟨by rw [hlane]; rfl, rfl, ?_⟩)⟩
    rw [if_pos (by rw [hlane]; rfl), List.getLast?_concat] at hi
    exact (Option.some.inj hi).symm
  · rw [if_neg hlane]
    rw [if_neg (fun h => hlane h.symm), List.append_nil] at hi
    obtain ⟨place, hlast, hmem⟩ := hc i hi
    exact ⟨place, hlast, Ledger.mem_slot_stitch.2 (.inl hmem)⟩

/-! ## A move -/

theorem last_moveRow {f : Fabric α} {source : Needle} {h : Held} (hne : f.rowLoops h source ≠ [])
    (target : Needle) (laneCount : Nat) (height : α) (c : Nat) :
    ((f.moveRow source target laneCount height h).1.store.path c).last =
      (f.store.path c).last.map fun place =>
        if (⟨c, place.row⟩ : Held) = h ∧ place.needle = source then ⟨place.row, target⟩
        else place := by
  obtain ⟨direction, hpath⟩ := path_moveRow hne target laneCount height
  rw [hpath]
  split
  · next hc =>
    subst hc
    simp only [YarnPath.land, YarnPath.modifyRow]
    congr 1
    funext place
    by_cases hplace : place = ⟨h.row, source⟩
    · subst hplace
      simp
    · rw [if_neg hplace, if_neg]
      rintro ⟨hrow, hneedle⟩
      exact hplace (by rw [← hneedle, ← hrow])
  · next hc =>
    cases (f.store.path c).last with
    | none => rfl
    | some place =>
      rw [Option.map_some, if_neg]
      rintro ⟨hrow, -⟩
      exact hc (congrArg Held.lane hrow)

theorem Anchored.move {f : Fabric α} {b : Ledger α} {c : Nat} (hc : f.Anchored b c)
    {source : Needle} {h : Held} (hne : f.rowLoops h source ≠ []) (target : Needle)
    (laneCount : Nat) (height : α) :
    (f.moveRow source target laneCount height h).1.Anchored (b.move source target h) c := by
  intro i hi
  obtain ⟨place, hlast, hmem⟩ := hc i hi
  rw [last_moveRow hne, hlast, Option.map_some]
  refine ⟨_, rfl, Ledger.mem_slot_move.2 ⟨place.needle, ?_, ?_⟩⟩
  · split <;> exact hmem
  · split <;> rfl

/-- A move that does not put other loops on the place of the last loop leaves the newest loop there
as it was; one that does puts them behind the last loop. -/
theorem leadsNewest_move {f : Fabric α} {b : Ledger α} {c : Nat} (hb : f.Tracks b)
    (hc : f.Anchored b c) {source : Needle} {h : Held} (hne : f.rowLoops h source ≠ [])
    (target : Needle) (laneCount : Nat) (height : α) :
    (f.moveRow source target laneCount height h).1.LeadsNewest (b.move source target h) c ↔
      f.LeadsNewest b c ∧ ¬f.BuriesRow source target c h := by
  have hslot : b.slot h source ≠ [] := fun h' => hne ((hb.slot_eq_nil_iff h source).1 h')
  have hnumbers : (b.move source target h).numbersOf c = b.numbersOf c := rfl
  unfold LeadsNewest BuriesRow
  rw [hnumbers]
  simp only [tailNumber?, last_moveRow hne]
  cases hlast : (f.store.path c).last with
  | none => simp
  | some place =>
    obtain ⟨row, m⟩ := place
    simp only [Option.map_some, Option.bind_some, Option.some.injEq, LoopPlace.mk.injEq]
    by_cases hk : (⟨c, row⟩ : Held) = h
    · subst hk
      simp only [true_and]
      by_cases hsource : m = source
      · -- The last loop moves along, and stays behind what was at the target.
        subst hsource
        simp only [if_true, Ledger.slot_move_target, List.getLast?_append_of_ne_nil _ hslot]
        exact (and_iff_left fun h => h.1 h.2).symm
      · rw [if_neg hsource]
        by_cases htarget : m = target
        · -- The loops from the source come behind the last loop.
          subst htarget
          simp only [Ledger.slot_move_target, List.getLast?_append_of_ne_nil _ hslot]
          refine ⟨?_, fun h => absurd ⟨Ne.symm hsource, trivial⟩ h.2⟩
          intro hnewest
          rw [List.getLast?_eq_some_getLast hslot] at hnewest
          obtain ⟨place, hplace, hmem⟩ := hc _ hnewest.symm
          obtain rfl := Option.some.inj (hlast.symm.trans hplace)
          exact absurd (hb.apart _ _ _ _ _ hmem (List.getLast_mem hslot)).2 hsource
        · have hsame : (b.move source target ⟨c, row⟩).slot ⟨c, row⟩ m = b.slot ⟨c, row⟩ m := by
            simp [Ledger.move, hsource, htarget]
          rw [hsame]
          exact (and_iff_left fun h => htarget h.2).symm
    · rw [if_neg fun h => hk h.1, b.slot_move_of_ne source target hk]
      refine (and_iff_left ?_).symm
      rintro ⟨-, rfl, rfl, -⟩
      exact hk rfl

/-! ## One call -/

theorem Transit.leadsNewest_moveRows {f : Fabric α} {b : Ledger α} {c : Nat} {source : Needle}
    {rows : List Held} (hf : f.Transit source rows) (hb : f.Tracks b) (hc : f.Anchored b c)
    (target : Needle) (laneCount : Nat) (height : α) :
    let f' := f.moveRows source target laneCount height rows
    let b' := rows.foldl (fun b h => b.move source target h) b
    f'.Anchored b' c ∧
      (f'.LeadsNewest b' c ↔
        f.LeadsNewest b c ∧ ∀ h ∈ rows, ¬f.BuriesRow source target c h) := by
  induction rows generalizing f b with
  | nil => exact ⟨hc, (and_iff_left fun _ hh => absurd hh List.not_mem_nil).symm⟩
  | cons h rows ih =>
    have hne := (hf.pending h List.mem_cons_self).2
    have hother : ∀ k ∈ rows, k ≠ h := fun k hk heq => (List.nodup_cons.1 hf.nodup).1 (heq ▸ hk)
    obtain ⟨hanchored, hleads⟩ := ih (hf.moveRow target laneCount height)
      (hb.move hne target laneCount height) (hc.move hne target laneCount height)
    refine ⟨hanchored, hleads.trans ?_⟩
    rw [leadsNewest_move hb hc hne, List.forall_mem_cons, and_assoc]
    -- Another row is moved onto the last loop after this move just as before it.
    have hburies : ∀ k ∈ rows,
        (f.moveRow source target laneCount height h).1.BuriesRow source target c k ↔
          f.BuriesRow source target c k := by
      intro k hk
      unfold BuriesRow
      rw [last_moveRow hne]
      cases (f.store.path c).last with
      | none => rfl
      | some place =>
        rw [Option.map_some]
        split
        · next hat =>
          obtain ⟨hrow, rfl⟩ := hat
          constructor
          · rintro ⟨hst, hlane, hplace⟩
            have hrow' := congrArg LoopPlace.row (Option.some.inj hplace)
            exact absurd (Held.ext hlane hrow'.symm) (hrow ▸ hother k hk)
          · rintro ⟨hst, hlane, hplace⟩
            exact absurd (congrArg LoopPlace.needle (Option.some.inj hplace)) hst
        · rfl
    exact and_congr_right fun _ => and_congr_right fun _ => forall₂_congr fun k hk =>
      not_congr (hburies k hk)

/-- What a call does to the last loop of a lane: a stitch of the lane makes another one, and of the
other calls only a transfer can bury it. -/
theorem leadsNewest_record {f : Fabric α} {b : Ledger α} {c : Nat} (hf : f.WellFormed)
    (hb : f.Tracks b) (hc : f.Anchored b c) (op : Operation) :
    (f.apply op).Anchored (f.record b op) c ∧
      ((f.apply op).LeadsNewest (f.record b op) c ↔
        op.lane? = some c ∨ f.LeadsNewest b c ∧ ¬f.Buries op c) := by
  cases op with
  | stitch knit direction n lane =>
    rw [apply_stitch]
    refine ⟨hc.stitch hf direction n lane _ _ knit _ _, ?_⟩
    simp only [LeadsNewest, record, tailNumber?_stitch hf, Ledger.numbersOf_stitch, Operation.lane?,
      Buries, not_false_eq_true, and_true, Option.some.injEq]
    by_cases hlane : c = lane.index
    · simp [hlane, stitchLoop]
    · have hne : (f.stitchLoop lane direction n (f.stitchBase knit n)
          (f.stitchHead? knit n)).carrier ≠ c := fun h => hlane h.symm
      simp [hlane, hne, Ne.symm hlane]
  | transfer source target laneCount =>
    simp only [Operation.lane?, reduceCtorEq, false_or, Buries, not_exists, not_and]
    rcases f.apply_transfer source target laneCount with ⟨hnone, h⟩ | ⟨height, h⟩
    · rw [h, record, (hf.baseHeight?_eq_none_iff source).1 hnone]
      exact ⟨hc, by simp⟩
    · rw [h]
      exact (transit_clearHeld hf source).leadsNewest_moveRows (hb.clearHeld source) hc target
        laneCount height
  | drop n =>
    simp only [Operation.lane?, reduceCtorEq, false_or, Buries, not_false_eq_true, and_true]
    rcases f.apply_drop n with ⟨-, h⟩ | h <;> rw [h]
    · exact ⟨hc, .rfl⟩
    · exact ⟨hc, .rfl⟩

/-! ## The last loop in a run -/

/-- A lane leads its newest loop unless it has been buried since its last stitch. -/
theorem run_leadsNewest (g : Geometry α) (ops : List Operation) (c : Nat) :
    (run g ops).Anchored (ledger g ops) c ∧
      ((run g ops).LeadsNewest (ledger g ops) c ↔
        ∀ pre op post, ops = pre ++ op :: post → (∀ o ∈ post, o.lane? ≠ some c) →
          ¬(run g pre).Buries op c) := by
  induction ops using List.reverseRecOn with
  | nil => exact ⟨fun i hi => by simp [Ledger.numbersOf, Ledger.empty] at hi, by
      simp [LeadsNewest, tailNumber?, empty, YarnStore.empty, YarnStore.path, YarnStore.path?,
        YarnPath.empty, Ledger.numbersOf, Ledger.empty]⟩
  | append_singleton ops o ih =>
    obtain ⟨hanchored, hleads⟩ := ih
    obtain ⟨hanchored', hleads'⟩ :=
      leadsNewest_record (wellFormed_run g ops) (tracks_ledger g ops) hanchored o
    rw [run_concat, ledger_concat]
    refine ⟨hanchored', hleads'.trans ⟨?_, ?_⟩⟩
    · intro h pre op post hops hpost hburies
      rcases List.eq_nil_or_concat post with rfl | ⟨post, o', rfl⟩
      · -- The call itself is the one in question.
        obtain ⟨rfl, hop⟩ := List.append_inj' hops rfl
        obtain rfl := (List.cons.inj hop).1
        rcases h with hlane | ⟨-, hnot⟩
        · cases o <;> simp_all [Operation.lane?, Buries]
        · exact hnot hburies
      · have hsplit : ops ++ [o] = (pre ++ op :: post) ++ [o'] := by simpa using hops
        obtain ⟨hops', ho⟩ := List.append_inj' hsplit rfl
        obtain rfl := (List.cons.inj ho).1
        rcases h with hlane | ⟨hbefore, -⟩
        · exact hpost o (by simp) hlane
        · exact hleads.1 hbefore pre op post hops' (fun k hk => hpost k (by simp [hk])) hburies
    · intro h
      by_cases hlane : o.lane? = some c
      · exact .inl hlane
      · refine .inr ⟨hleads.2 ?_, ?_⟩
        · intro pre op post hops hpost
          refine h pre op (post ++ [o]) (by rw [hops]; simp) ?_
          intro k hk
          rcases List.mem_append.1 hk with hk | hk
          · exact hpost k hk
          · rw [List.mem_singleton.1 hk]
            exact hlane
        · exact h ops o [] rfl fun k hk => absurd hk List.not_mem_nil

/-- Every stitch of a run leads the loop that its lane made last. -/
def LeadsThroughout (g : Geometry α) (ops : List Operation) : Prop :=
  ∀ pre op c, pre ++ [op] <+: ops → op.lane? = some c →
    (run g pre).LeadsNewest (ledger g pre) c

theorem leadsThroughout_iff (g : Geometry α) (ops : List Operation) :
    LeadsThroughout g ops ↔
      ∀ pre op mid op' c, pre ++ op :: mid ++ [op'] <+: ops → op'.lane? = some c →
        (∀ o ∈ mid, o.lane? ≠ some c) → ¬(run g pre).Buries op c := by
  constructor
  · intro h pre op mid op' c hpre hlane hmid
    exact (run_leadsNewest g _ c).2.1 (h _ op' c hpre hlane) pre op mid rfl hmid
  · intro h pre op' c hpre hlane
    refine (run_leadsNewest g pre c).2.2 ?_
    intro pre' op mid hsplit hmid
    exact h pre' op mid op' c (hsplit ▸ hpre) hlane hmid

/-! ## Loops that meet -/

/-- The head of a stitch does not begin with its first point. -/
theorem head?_outline (g : Geometry α) (spec : StitchSpec α) (head : Option α) :
    (outline g spec head).head? = (g.stitchBox spec).head? := by
  cases head with
  | none => rfl
  | some height =>
    have hfirst : ∀ ps qs : List (Point α), ps.length = qs.length →
        ((ps.zip qs).mapIdx fun i pq => if inKnitHead i then pq.2 else pq.1).head? = ps.head? := by
      intro ps qs hlength
      cases ps with
      | nil => rfl
      | cons p ps =>
        cases qs with
        | nil => simp at hlength
        | cons q qs => simp [inKnitHead]
    exact hfirst _ _ (by rw [g.length_stitchBox, g.length_stitchBox])

/-- A stitch starts at its seam. -/
theorem head?_stitchLoop (f : Fabric α) (lane : Lane) (direction : Direction) (n : Needle)
    (height : α) (head : Option α) :
    ∃ q, (f.stitchLoop lane direction n height head).points.head? = some q ∧
      q.x = (f.seam lane direction n height).1 ∧ q.y = (f.seam lane direction n height).2 := by
  rw [stitchLoop, head?_outline, Geometry.head?_stitchBox]
  exact ⟨_, rfl, rfl, rfl⟩

/-- A stitch that leads the newest loop of its lane keeps the loops of every lane joined. -/
theorem joined_stitch {f : Fabric α} {b : Ledger α} (hf : f.WellFormed) (hb : f.Tracks b)
    {lane : Lane} (hleads : f.LeadsNewest b lane.index) (direction : Direction) (n : Needle)
    (height : α) (head : Option α) (row : Held) (c : Nat)
    (hc : (b.numbersOf c).IsChain b.Joined) :
    let b' := b.stitch (f.tailNumber? b lane.index) (f.seam lane direction n height) row n
      (f.stitchLoop lane direction n height head)
    (b'.numbersOf c).IsChain b'.Joined := by
  intro b'
  have hpoints : ∀ (j : Nat) (l : Loop α), b.made[j]? = some l → l.points.length = loopPoints :=
    fun j l hl => hb.length_points hf hl
  have hold : ∀ i j, f.tailNumber? b lane.index ≠ some i → b.Joined i j → b'.Joined i j :=
    fun i j hi hij => hij.stitch (hpoints j) hi ..
  have hnumbers : b'.numbersOf c =
      b.numbersOf c ++ if lane.index = c then [b.made.length] else [] :=
    Ledger.numbersOf_stitch ..
  rw [hnumbers]
  by_cases hlane : lane.index = c
  · subst hlane
    rw [if_pos rfl]
    refine List.isChain_append.2 ⟨?_, .singleton _, ?_⟩
    · rw [List.isChain_iff_forall₂] at hc ⊢
      have hnewest : ∀ i ∈ (b.numbersOf lane.index).dropLast,
          f.tailNumber? b lane.index ≠ some i := by
        intro i hi
        rw [hleads]
        exact Ledger.getLast?_ne_of_mem_dropLast (b.nodup_numbersOf lane.index) hi
      exact ((List.forall₂_and_left _ _).2 ⟨hnewest, hc⟩).imp fun i j ⟨hi, hij⟩ => hold i j hi hij
    · -- The newest loop is led to the stitch.
      intro i hi j hj
      obtain rfl : b.made.length = j := by simpa using hj
      obtain ⟨l, hl, -⟩ := Ledger.mem_numbersOf.1 (List.mem_of_getLast? hi)
      obtain ⟨q, hq, hx, hy⟩ := f.head?_stitchLoop lane direction n height head
      have htail : f.tailNumber? b lane.index = some i := hleads.trans hi
      have hjoined := Ledger.joined_stitch_tail hl (hpoints i l hl) _ row n hq hx hy
      rwa [← htail] at hjoined
  · -- The loop that is led is one of another lane.
    rw [if_neg hlane, List.append_nil]
    refine hc.imp_of_mem_imp fun i j hi _ hij => hold i j ?_ hij
    intro htail
    have hmem := List.mem_of_getLast? (hleads.symm.trans htail)
    obtain ⟨l, hl, hcarrier⟩ := Ledger.mem_numbersOf.1 hi
    obtain ⟨l', hl', hcarrier'⟩ := Ledger.mem_numbersOf.1 hmem
    obtain rfl := Option.some.inj (hl.symm.trans hl')
    exact hlane (hcarrier'.symm.trans hcarrier)

theorem run_joined (g : Geometry α) (ops : List Operation) (h : LeadsThroughout g ops) (c : Nat) :
    ((ledger g ops).numbersOf c).IsChain (ledger g ops).Joined := by
  induction ops using List.reverseRecOn with
  | nil => exact .nil
  | append_singleton ops op ih =>
    have hbefore := ih fun pre op' c' hpre => h pre op' c' (hpre.trans (List.prefix_append ..))
    rw [ledger_concat]
    cases hlane : op.lane? with
    | none =>
      have hmade := made_record (f := run g ops) (b := ledger g ops) hlane
      have hjoined : ((run g ops).record (ledger g ops) op).Joined = (ledger g ops).Joined := by
        funext i j
        simp only [Ledger.Joined, hmade]
      rw [hjoined, Ledger.numbersOf, hmade]
      exact hbefore
    | some c' =>
      cases op with
      | stitch knit direction n lane =>
        exact joined_stitch (wellFormed_run g ops) (tracks_ledger g ops)
          (h ops _ lane.index (List.prefix_refl _) rfl) direction n _ _ _ c hbefore
      | transfer => simp [Operation.lane?] at hlane
      | drop => simp [Operation.lane?] at hlane

/-- Wherever transfers have moved them, each loop of a lane ends where the next one starts. -/
def Continuous (f : Fabric α) (b : Ledger α) (c : Nat) : Prop :=
  (b.numbersOf c).IsChain fun i j => ∃ l l',
    (∀ m, f.Numbered b i m ↔ m = l) ∧ (∀ m, f.Numbered b j m ↔ m = l') ∧ l.Meets l'

/-- Every stitch leads the loop that its lane made last exactly when the yarn of no lane is buried
between two stitches of the lane that follow each other; and then the yarn of every lane is in one
piece. -/
theorem continuity_iff (g : Geometry α) (ops : List Operation) :
    (LeadsThroughout g ops ↔
      ∀ pre op mid op' c, pre ++ op :: mid ++ [op'] <+: ops → op'.lane? = some c →
        (∀ o ∈ mid, o.lane? ≠ some c) → ¬(run g pre).Buries op c) ∧
    (LeadsThroughout g ops → ∀ c, (run g ops).Continuous (ledger g ops) c) := by
  refine ⟨leadsThroughout_iff g ops, fun h c => (run_joined g ops h c).imp ?_⟩
  rintro i j ⟨l, l', hl, hl', hmeet⟩
  have hb := tracks_ledger g ops
  obtain ⟨m, hm, l₀, hl₀, hsame⟩ :=
    hb.existsUnique_numbered (List.getElem?_eq_some_iff.1 hl).1
  obtain ⟨m', hm', l₀', hl₀', hsame'⟩ :=
    hb.existsUnique_numbered (List.getElem?_eq_some_iff.1 hl').1
  obtain rfl := Option.some.inj (hl.symm.trans hl₀)
  obtain rfl := Option.some.inj (hl'.symm.trans hl₀')
  exact ⟨m, m', hm, hm', hmeet.sameYarn hsame hsame' (hb.length_points (wellFormed_run g ops) hl)⟩

/-- Two tucks of one row, the second of which is buried under the first before the next stitch. -/
def buryingRun : List Operation :=
  [.stitch false .right ⟨.front, 0⟩ ⟨0, 1⟩, .stitch false .right ⟨.back, 0⟩ ⟨0, 1⟩,
    .transfer ⟨.front, 0⟩ ⟨.back, 0⟩ 1, .stitch false .right ⟨.front, 4⟩ ⟨0, 1⟩]

/-- The loop that buries another is led to the next stitch in its place, and the other does not end
there. -/
theorem buried_loop_breaks :
    ¬∀ (g : Geometry Float32) (ops : List Operation) (c : Nat),
      (run g ops).Continuous (ledger g ops) c := by
  intro h
  let g : Geometry Float32 := .standard
  have hnumbers : (ledger g buryingRun).numbersOf 0 = [0, 1, 2] := by decide
  have hchain := h g buryingRun 0
  rw [Continuous, hnumbers, List.isChain_cons_cons, List.isChain_cons_cons] at hchain
  obtain ⟨l, l', hl, hl', p, q, hp, hq, hx, -⟩ := hchain.2.1
  -- The second tuck ends where it was drawn to end, the last one starts elsewhere.
  have hend : ((run g buryingRun).rowLoops ⟨0, 0⟩ ⟨.back, 0⟩)[0]?.bind
      (fun l => l.points.getLast?.map (·.x)) = some (Float32.ofInt 1 / Float32.ofInt 2) := by
    decide +kernel
  have hstart : ((run g buryingRun).rowLoops ⟨0, 0⟩ ⟨.front, 4⟩)[0]?.bind
      (fun l => l.points.head?.map (·.x)) = some (Float32.ofInt 5) := by decide +kernel
  obtain ⟨a, ha, hax⟩ := Option.bind_eq_some_iff.1 hend
  obtain ⟨b, hb, hbx⟩ := Option.bind_eq_some_iff.1 hstart
  have hsecond : (ledger g buryingRun).slot ⟨0, 0⟩ ⟨.back, 0⟩ = [1, 0] := by decide
  have hlast : (ledger g buryingRun).slot ⟨0, 0⟩ ⟨.front, 4⟩ = [2] := by decide
  rw [(hl a).1 (numbered_of_getElem? (by rw [hsecond]; rfl) ha), hp, Option.map_some,
    Option.some.injEq] at hax
  rw [(hl' b).1 (numbered_of_getElem? (by rw [hlast]; rfl) hb), hq, Option.map_some,
    Option.some.injEq] at hbx
  rw [hax, hbx] at hx
  exact absurd hx (by decide +kernel)

end Fabric

end Knitting
