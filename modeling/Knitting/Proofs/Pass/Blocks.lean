import Knitting.Pass.Schedule
import Mathlib.Data.List.Forall2
import Mathlib.Data.List.Induction

set_option autoImplicit false

/-! # Passes as blocks of what was scheduled

Passes that each do one thing at one slot are scheduled one after the other, and in between the
carriers of a pass are taken out or the hook lets go. Whatever is scheduled, the passes that come of
it are consecutive blocks of it (`Schedule.run_blocks`): nothing is lost, done twice or done in
another pass, and in each block one sweep visits the slots strictly in its direction. -/

namespace Knitting

/-! ## Entries of a table -/

namespace Table

variable {ν : Type}

theorem insertEntry_perm {k : Int} {v : ν} {l : List (Int × ν)} (h : lookup k l = none) :
    (insertEntry k v l).Perm ((k, v) :: l) := by
  induction l with
  | nil => exact .refl _
  | cons e rest ih =>
    obtain ⟨k', v'⟩ := e
    unfold lookup at h
    split at h
    · simp at h
    · next hne =>
      unfold insertEntry
      split
      · exact .refl _
      · next heq => exact absurd heq hne
      · exact ((ih h).cons _).trans (.swap ..)

/-- A new entry is put among the others. -/
theorem entries_insert_perm {t : Table Int ν} {k : Int} (h : t.get? k = none) (v : ν) :
    (t.insert k v).entries.Perm ((k, v) :: t.entries) :=
  insertEntry_perm h

theorem pairwise_keys (t : Table Int ν) : t.keys.Pairwise (· < ·) := by
  refine List.pairwise_map.2 (t.ascending.imp ?_)
  intro a b hab
  exact Int.compare_eq_lt.1 hab

theorem ne_of_mem_keys {t : Table Int ν} {k slot : Int} (hslot : t.get? slot = none)
    (h : k ∈ t.keys) : k ≠ slot := by
  rintro rfl
  obtain ⟨e, he, rfl⟩ := List.mem_map.1 h
  rw [get?_eq_some_iff.2 he] at hslot
  simp at hslot

end Table

/-! ## The order of a sweep -/

/-- A sweep in a direction visits a slot before another one. Without a direction it visits them in
any order, but only once. -/
def Direction.Before : Direction → Int → Int → Prop
  | .right, a, b => a < b
  | .left, a, b => b < a
  | .undirected, a, b => a ≠ b

theorem Direction.Before.ne {direction : Direction} {a b : Int} (h : direction.Before a b) :
    a ≠ b := by
  cases direction with
  | right => exact Int.ne_of_lt h
  | left => exact Int.ne_of_gt h
  | undirected => exact h

/-- A sweep in a direction that has been at a slot can come to another one, or is still there. -/
def Direction.Reaches : Direction → Int → Int → Prop
  | .right, a, b => a ≤ b
  | .left, a, b => b ≤ a
  | .undirected, _, _ => True

namespace Pass

/-- A sweep goes on to a slot if it has gone past none of its own to come there. -/
theorem inSweepOrder_iff {direction : Direction} {slots : Table Int SlotOp} {slot : Int} :
    inSweepOrder direction slots slot = true ↔ ∀ k ∈ slots.keys, direction.Reaches k slot := by
  have hkeys := slots.pairwise_keys
  unfold inSweepOrder
  generalize slots.keys = keys at hkeys
  cases direction with
  | undirected => simp [Direction.Reaches]
  | right =>
    -- The last key is the greatest.
    rcases List.eq_nil_or_concat' keys with rfl | ⟨init, last, rfl⟩
    · simp
    · have hlast : ∀ k ∈ init, k < last := fun k hk =>
        (List.pairwise_append.1 hkeys).2.2 k hk last List.mem_cons_self
      simp only [List.getLast?_concat, Option.all_some, decide_eq_true_eq, Direction.Reaches,
        List.forall_mem_append, List.forall_mem_singleton]
      exact ⟨fun h => ⟨fun k hk => Int.le_trans (Int.le_of_lt (hlast k hk)) h, h⟩, And.right⟩
  | left =>
    -- The first key is the least.
    cases keys with
    | nil => simp
    | cons first rest =>
      have hfirst : ∀ k ∈ rest, first < k := (List.pairwise_cons.1 hkeys).1
      simp only [List.head?_cons, Option.all_some, decide_eq_true_eq, Direction.Reaches,
        List.forall_mem_cons]
      exact ⟨fun h => ⟨h, fun k hk => Int.le_trans h (Int.le_of_lt (hfirst k hk))⟩, And.left⟩

/-- What a sweep does at a slot that is new to it comes after all that it does so far. -/
theorem before_of_inSweepOrder {direction : Direction} {slots : Table Int SlotOp} {slot : Int}
    (horder : inSweepOrder direction slots slot = true) (hnew : slots.get? slot = none) :
    ∀ k ∈ slots.keys, direction.Before k slot := by
  intro k hk
  have hreaches := inSweepOrder_iff.1 horder k hk
  have hne := Table.ne_of_mem_keys hnew hk
  cases direction with
  | undirected => exact hne
  | right => exact Int.lt_iff_le_and_ne.2 ⟨hreaches, hne⟩
  | left => exact Int.lt_iff_le_and_ne.2 ⟨hreaches, hne.symm⟩

/-! ## Sweeps over blocks -/

/-- A pass does one thing at one slot, and that is not to wait what else happens there. -/
def IsSingle (p : Pass) : Prop := ∃ slot op, p.slots.entries = [(slot, op)] ∧ op ≠ .softMiss

/-- A pass does what a block of passes asks for, in one sweep. They are of one sort, their slots are
visited in the order of the block, and none but the first brings yarn in. -/
structure Sweeps (p : Pass) (block : List Pass) : Prop where
  sort : ∀ q ∈ block, q.kind = p.kind ∧ q.stitch = p.stitch ∧ q.direction = p.direction ∧
    q.carriers = p.carriers ∧ q.kick = p.kick
  start : ∃ first rest, block = first :: rest ∧ p.racking = first.racking ∧
    ∀ q ∈ rest, (first.racking == q.racking) = true ∧ q.bringsIn = false
  entries : p.slots.entries.Perm (block.flatMap (·.slots.entries))
  order : (block.flatMap (·.slots.keys)).Pairwise p.direction.Before

variable {p q joined : Pass} {block : List Pass}

/-- A single pass is a sweep over itself. -/
theorem IsSingle.sweeps (h : p.IsSingle) : p.Sweeps [p] := by
  obtain ⟨slot, op, hentries, -⟩ := h
  refine ⟨by simp, ⟨p, [], rfl, rfl, nofun⟩, by simp, ?_⟩
  simp [Table.keys, hentries]

/-- What hook and gripper do is no matter of the slots. -/
theorem Sweeps.withActions (h : p.Sweeps block) (hook : Option HookAction)
    (gripper : Option GripperAction) : Sweeps { p with hook, gripper } block :=
  ⟨h.sort, h.start, h.entries, h.order⟩

/-- Passes that one sweep does are of one sort, and the later one brings nothing in. -/
theorem absorb?_eq_some {p q joined : Pass} (h : p.absorb? q = some joined) :
    q.bringsIn = false ∧ p.agrees q = true ∧
      ∃ slots, addSlots? p.direction p.slots q.slots.entries = some slots ∧
        joined =
          { p with slots, hook := p.hook <|> q.hook, gripper := p.gripper <|> q.gripper } := by
  unfold absorb? at h
  split at h
  · simp at h
  · next hfree =>
    simp only [Bool.or_eq_true, not_or, Bool.not_eq_true, Bool.not_eq_false'] at hfree
    obtain ⟨slots, hslots, rfl⟩ := Option.map_eq_some_iff.1 h
    exact ⟨hfree.1.1.1.2, hfree.1.1.2, slots, hslots, rfl⟩

/-- Where nothing waits for what else happens at its slot, only a new slot can be added. -/
theorem addSlot?_eq_some {direction : Direction} {slots slots' : Table Int SlotOp} {slot : Int}
    {op : SlotOp} (hwaiting : ∀ e ∈ slots.entries, e.2 ≠ .softMiss) (hop : op ≠ .softMiss)
    (h : addSlot? direction slots slot op = some slots') :
    inSweepOrder direction slots slot = true ∧ slots.get? slot = none ∧
      slots' = slots.insert slot op := by
  unfold addSlot? at h
  split at h
  · next horder =>
    split at h
    · next hnew => exact ⟨horder, hnew, (Option.some.inj h).symm⟩
    · next first hfirst =>
      obtain ⟨merged, hmerged, -⟩ := Option.map_eq_some_iff.1 h
      rcases SlotOp.merge?_eq_some_iff.1 hmerged with ⟨hsoft, -⟩ | ⟨hsoft, -⟩
      · exact absurd hsoft (hwaiting _ (Table.get?_eq_some_iff.1 hfirst))
      · exact absurd hsoft hop
  · simp at h

/-- A sweep that takes in one more pass is a sweep over the block with that pass. -/
theorem Sweeps.absorb (h : p.Sweeps block) (hblock : ∀ q ∈ block, q.IsSingle) (hq : q.IsSingle)
    (hjoin : p.absorb? q = some joined) : joined.Sweeps (block ++ [q]) := by
  obtain ⟨slot, op, hentries, hop⟩ := hq
  obtain ⟨hbrings, hagrees, slots, hslots, rfl⟩ := absorb?_eq_some hjoin
  have hwaiting : ∀ e ∈ p.slots.entries, e.2 ≠ .softMiss := by
    intro e he
    obtain ⟨r, hr, her⟩ := List.mem_flatMap.1 (h.entries.mem_iff.1 he)
    obtain ⟨slot', op', hentries', hop'⟩ := hblock r hr
    rw [hentries', List.mem_singleton] at her
    exact her ▸ hop'
  have hadd : addSlot? p.direction p.slots slot op = some slots := by
    simpa [hentries, addSlots?] using hslots
  obtain ⟨horder, hnew, rfl⟩ := addSlot?_eq_some hwaiting hop hadd
  simp only [agrees, Bool.and_eq_true, decide_eq_true_eq] at hagrees
  obtain ⟨⟨⟨⟨⟨hkick, hkind⟩, hracking⟩, hstitch⟩, hdirection⟩, hcarriers⟩ := hagrees
  obtain ⟨first, rest, rfl, hfirst, hrest⟩ := h.start
  refine Sweeps.withActions (p := { p with slots := p.slots.insert slot op }) ⟨?_, ?_, ?_, ?_⟩ _ _
  · intro r hr
    rcases List.mem_append.1 hr with hr | hr
    · exact h.sort r hr
    · obtain rfl := List.mem_singleton.1 hr
      exact ⟨hkind.symm, hstitch.symm, hdirection.symm, hcarriers.symm, hkick.symm⟩
  · refine ⟨first, rest ++ [q], rfl, hfirst, ?_⟩
    intro r hr
    rcases List.mem_append.1 hr with hr | hr
    · exact hrest r hr
    · obtain rfl := List.mem_singleton.1 hr
      exact ⟨hfirst ▸ hracking, hbrings⟩
  · rw [List.flatMap_append, List.flatMap_singleton, hentries]
    refine (Table.entries_insert_perm hnew op).trans ?_
    exact (h.entries.cons _).trans (List.perm_append_singleton _ _).symm
  · rw [List.flatMap_append, List.flatMap_singleton, List.pairwise_append]
    refine ⟨h.order, ?_, ?_⟩
    · simp [Table.keys, hentries]
    · intro k hk k' hk'
      simp only [Table.keys, hentries, List.map_cons, List.map_nil, List.mem_singleton] at hk'
      subst hk'
      refine before_of_inSweepOrder horder hnew k ?_
      have hkeys : p.slots.keys.Perm ((first :: rest).flatMap (·.slots.keys)) := by
        simpa only [Table.keys, List.map_flatMap] using h.entries.map (·.1)
      exact hkeys.mem_iff.2 hk

end Pass

/-! ## Runs of the schedule -/

namespace Schedule

/-- What a schedule can be asked to do. -/
inductive Call where
  | append (p : Pass)
  | takeOut (names : List String) (withHook : Bool)
  | release

/-- The pass that is handed over with a call. -/
def Call.pass? : Call → Option Pass
  | .append p => some p
  | .takeOut _ _ => none
  | .release => none

def apply (s : Schedule) : Call → Schedule
  | .append p => (s.append p).1
  | .takeOut names withHook => (s.takeOut names withHook).1
  | .release => s.release.1

/-- The schedule after some calls. -/
def run (calls : List Call) : Schedule := calls.foldl apply .empty

/-- The passes that are handed over, in order. -/
def submitted (calls : List Call) : List Pass := calls.filterMap Call.pass?

theorem submitted_append (calls more : List Call) :
    submitted (calls ++ more) = submitted calls ++ submitted more := List.filterMap_append

theorem run_append (calls more : List Call) :
    run (calls ++ more) = more.foldl apply (run calls) := List.foldl_append

theorem run_concat (calls : List Call) (c : Call) : run (calls ++ [c]) = (run calls).apply c :=
  run_append calls [c]

/-- The closed passes and the open one come of consecutive blocks of what was handed over. -/
def MadeOf (s : Schedule) (passes : List Pass) : Prop :=
  ∃ done last, passes = done.flatten ++ last ∧ List.Forall₂ Pass.Sweeps s.closed done ∧
    match s.openPass with
    | none => last = []
    | some p => p.Sweeps last

theorem MadeOf.append {s : Schedule} {passes : List Pass} (h : s.MadeOf passes)
    (hpasses : ∀ q ∈ passes, q.IsSingle) {p : Pass} (hp : p.IsSingle) :
    (s.append p).1.MadeOf (passes ++ [p]) := by
  obtain ⟨done, last, rfl, hdone, hlast⟩ := h
  unfold Schedule.append
  cases hopen : s.openPass with
  | none =>
    rw [hopen] at hlast
    subst hlast
    exact ⟨done, [p], by simp, hdone, hp.sweeps⟩
  | some q =>
    rw [hopen] at hlast
    dsimp only at hlast ⊢
    split
    · next joined hjoin =>
      refine ⟨done, last ++ [p], by simp, hdone, ?_⟩
      exact hlast.absorb (fun r hr => hpasses r (List.mem_append_right _ hr)) hp hjoin
    · -- The open pass is closed, with the block that it comes of.
      refine ⟨done ++ [last], [p], by simp, ?_, hp.sweeps⟩
      exact List.rel_append hdone (.cons hlast .nil)

theorem MadeOf.withActions {s s' : Schedule} {passes : List Pass} (h : s.MadeOf passes)
    (hclosed : s'.closed = s.closed)
    (hopen : s'.openPass = s.openPass ∨ ∃ p hook gripper, s.openPass = some p ∧
      s'.openPass = some { p with hook, gripper }) : s'.MadeOf passes := by
  obtain ⟨done, last, rfl, hdone, hlast⟩ := h
  refine ⟨done, last, rfl, hclosed ▸ hdone, ?_⟩
  rcases hopen with hopen | ⟨p, hook, gripper, hopen, hopen'⟩
  · rwa [hopen]
  · rw [hopen] at hlast
    rw [hopen']
    exact hlast.withActions hook gripper

/-- Taking carriers out ties at most an action to the open pass. -/
theorem takeOut_withActions (s : Schedule) (names : List String) (withHook : Bool) :
    (s.takeOut names withHook).1.closed = s.closed ∧
      ((s.takeOut names withHook).1.openPass = s.openPass ∨ ∃ p hook gripper,
        s.openPass = some p ∧
          (s.takeOut names withHook).1.openPass = some { p with hook, gripper }) := by
  unfold takeOut
  cases hopen : s.openPass with
  | none => exact ⟨rfl, .inl hopen⟩
  | some p =>
    dsimp only
    split
    · exact ⟨rfl, .inl hopen⟩
    · exact ⟨rfl, .inr ⟨p, _, _, rfl, rfl⟩⟩

theorem release_withActions (s : Schedule) :
    s.release.1.closed = s.closed ∧ (s.release.1.openPass = s.openPass ∨ ∃ p hook gripper,
      s.openPass = some p ∧ s.release.1.openPass = some { p with hook, gripper }) := by
  unfold release
  cases hopen : s.openPass with
  | none => exact ⟨rfl, .inl hopen⟩
  | some p =>
    dsimp only
    split
    · exact ⟨rfl, .inr ⟨p, _, p.gripper, rfl, rfl⟩⟩
    · exact ⟨rfl, .inl hopen⟩

theorem run_madeOf {calls : List Call} (hcalls : ∀ p ∈ submitted calls, p.IsSingle) :
    (run calls).MadeOf (submitted calls) := by
  induction calls using List.reverseRecOn with
  | nil => exact ⟨[], [], rfl, .nil, rfl⟩
  | append_singleton calls c ih =>
    rw [submitted_append] at hcalls ⊢
    rw [run_concat]
    have hbefore : ∀ p ∈ submitted calls, p.IsSingle := fun p hp =>
      hcalls p (List.mem_append_left _ hp)
    cases c with
    | append p =>
      have hp : p ∈ submitted [.append p] := List.mem_cons_self
      exact (ih hbefore).append hbefore (hcalls p (List.mem_append_right _ hp))
    | takeOut names withHook =>
      have hnone : submitted [.takeOut names withHook] = [] := rfl
      obtain ⟨hclosed, hopen⟩ := (run calls).takeOut_withActions names withHook
      rw [hnone, List.append_nil]
      exact (ih hbefore).withActions hclosed hopen
    | release =>
      have hnone : submitted [.release] = [] := rfl
      obtain ⟨hclosed, hopen⟩ := (run calls).release_withActions
      rw [hnone, List.append_nil]
      exact (ih hbefore).withActions hclosed hopen

/-- A call never changes a closed pass. -/
theorem closed_prefix_apply (s : Schedule) (c : Call) : s.closed <+: (s.apply c).closed := by
  cases c with
  | append p =>
    simp only [apply, Schedule.append]
    split
    · exact List.prefix_rfl
    · split
      · exact List.prefix_rfl
      · exact List.prefix_append _ _
  | takeOut names withHook => exact (s.takeOut_withActions names withHook).1 ▸ List.prefix_rfl
  | release => exact s.release_withActions.1 ▸ List.prefix_rfl

theorem closed_prefix_foldl (s : Schedule) (more : List Call) :
    s.closed <+: (more.foldl apply s).closed :=
  List.foldlRecOn more apply (motive := fun t => s.closed <+: t.closed) List.prefix_rfl
    fun t ht c _ => ht.trans (t.closed_prefix_apply c)

/-- Of the actions that can be tied to a pass every one closes it. -/
theorem isClosed_takeOut {s : Schedule} {names : List String} {withHook : Bool}
    (h : ∀ q ∈ s.openPass, q.isClosed = true) :
    ∀ q ∈ (s.takeOut names withHook).1.openPass, q.isClosed = true := by
  unfold takeOut
  split
  · exact h
  · split
    · exact h
    · intro q hq
      obtain rfl := Option.some.inj hq
      simp [Pass.isClosed]

theorem isClosed_release {s : Schedule} (h : ∀ q ∈ s.openPass, q.isClosed = true) :
    ∀ q ∈ s.release.1.openPass, q.isClosed = true := by
  unfold release
  split
  · exact h
  · split
    · intro q hq
      obtain rfl := Option.some.inj hq
      simp [Pass.isClosed]
    · exact h

/-- Whatever comes after a pass that has let go of its yarn or taken it out, it does no more at any
slot. -/
theorem passes_of_isClosed {s : Schedule} {q : Pass} (hopen : s.openPass = some q)
    (hclosed : q.isClosed = true) (more : List Call) :
    ∃ hook gripper rest,
      (more.foldl apply s).passes = s.closed ++ { q with hook, gripper } :: rest := by
  -- Once another pass is open, the closed passes keep it as it was.
  induction more generalizing s q with
  | nil => exact ⟨q.hook, q.gripper, [], by simp [passes, hopen]⟩
  | cons c more ih =>
    have hactions : ∀ {s' : Schedule}, s'.closed = s.closed →
        (∀ r ∈ s'.openPass, r.isClosed = true) →
        (s'.openPass = s.openPass ∨ ∃ r hook gripper, s.openPass = some r ∧
          s'.openPass = some { r with hook, gripper }) →
        ∃ hook gripper rest,
          (more.foldl apply s').passes = s.closed ++ { q with hook, gripper } :: rest := by
      intro s' hsame hclosed' hopen'
      rw [hopen] at hopen'
      rcases hopen' with hopen' | ⟨r, hook, gripper, hr, hopen'⟩
      · exact hsame ▸ ih hopen' (hclosed' _ hopen')
      · obtain rfl := Option.some.inj hr
        obtain ⟨hook', gripper', rest, hrest⟩ := ih hopen' (hclosed' _ hopen')
        exact ⟨hook', gripper', rest, hsame ▸ hrest⟩
    have hall : ∀ r ∈ s.openPass, r.isClosed = true := by
      intro r hr
      obtain rfl := Option.some.inj (hopen.symm.trans hr)
      exact hclosed
    cases c with
    | append p =>
      have hnone : q.absorb? p = none := by simp [Pass.absorb?, hclosed]
      have happend : s.apply (.append p) = ⟨s.closed ++ [q], some p⟩ := by
        simp [apply, Schedule.append, hopen, hnone]
      obtain ⟨rest, hrest⟩ := closed_prefix_foldl (s.apply (.append p)) more
      rw [happend] at hrest
      refine ⟨q.hook, q.gripper,
        rest ++ (more.foldl apply (s.apply (.append p))).openPass.toList, ?_⟩
      rw [List.foldl_cons, passes, happend, ← hrest]
      simp
    | takeOut names withHook =>
      obtain ⟨hsame, hopen'⟩ := s.takeOut_withActions names withHook
      exact hactions hsame (isClosed_takeOut hall) hopen'
    | release =>
      obtain ⟨hsame, hopen'⟩ := s.release_withActions
      exact hactions hsame (isClosed_release hall) hopen'

/-- Whatever single passes are handed over and whatever actions are tied to them on the way, the
passes that come of it are consecutive blocks of these. Nothing is added any more to a pass that has
let go of its yarn or taken it out, and a pass that is closed does not change. -/
theorem run_blocks {calls : List Call} (hcalls : ∀ p ∈ submitted calls, p.IsSingle) :
    (∃ blocks, submitted calls = blocks.flatten ∧
      List.Forall₂ Pass.Sweeps (run calls).passes blocks) ∧
    (∀ q ∈ (run calls).openPass, q.isClosed = true → ∀ more, ∃ hook gripper rest,
      (run (calls ++ more)).passes = (run calls).closed ++ { q with hook, gripper } :: rest) ∧
    ∀ more, (run calls).closed <+: (run (calls ++ more)).closed := by
  refine ⟨?_, ?_, ?_⟩
  · obtain ⟨done, last, hsubmitted, hdone, hlast⟩ := run_madeOf hcalls
    unfold passes
    cases hopen : (run calls).openPass with
    | none =>
      rw [hopen] at hlast
      subst hlast
      exact ⟨done, by simpa using hsubmitted, by simpa using hdone⟩
    | some p =>
      rw [hopen] at hlast
      exact ⟨done ++ [last], by simpa using hsubmitted, List.rel_append hdone (.cons hlast .nil)⟩
  · intro q hopen hclosed more
    rw [run_append]
    exact passes_of_isClosed hopen hclosed more
  · intro more
    rw [run_append]
    exact closed_prefix_foldl _ more

/-- Two stitches to the right make one pass. Once the carrier is taken out after them, a third one
makes another. -/
theorem run_blocks_after_takeOut :
    let stitch := fun slot => Pass.single .knitTuck slot .knitFront 0 5 .right ["A"]
    let calls := [.append (stitch 0), .append (stitch 1), .takeOut ["A"] false, .append (stitch 2)]
    (run calls).passes.length = 2 ∧ ∃ blocks, submitted calls = blocks.flatten ∧
      List.Forall₂ Pass.Sweeps (run calls).passes blocks := by
  intro stitch calls
  have hcalls : ∀ p ∈ submitted calls, p.IsSingle := by
    intro p hp
    have hstitch : ∃ slot, p = stitch slot := by
      simp only [calls, submitted, List.filterMap_cons, Call.pass?, List.filterMap_nil,
        List.mem_cons, List.not_mem_nil, or_false] at hp
      grind
    obtain ⟨slot, rfl⟩ := hstitch
    exact ⟨slot, .knitFront, rfl, nofun⟩
  exact ⟨by decide +kernel, (run_blocks hcalls).1⟩

end Schedule

end Knitting
