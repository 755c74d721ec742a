import Knitting.Proofs.Machine.Failure

set_option autoImplicit false

/-! # Tables in another order

The active carriers are kept by name, and the order in which a table comes up with them means
nothing: two tables with the same carrier at each name stand for the same state, whatever their
orders (`Carriers.Reordered`). The order is seen in one place only, where a pass asks who is in its
way, and there the carriers are sorted by lane. Each has a lane of its own, so that the sorted list
is the same (`Carriers.Reordered.active`), and with it everything that an instruction does
(`Machine.Reordered.execute`). -/

namespace Knitting

/-! ## Tables -/

namespace Carriers

variable {t t' u u' : Carriers}

/-- Two tables with the same carrier at each name, and each carrier just once. -/
structure Reordered (t t' : Carriers) : Prop where
  declared : t'.declared = t.declared
  fromHeader : t'.fromHeader = t.fromHeader
  get? : ∀ k, t'.get? k = t.get? k
  nodup : (t.members.map (·.name)).Nodup
  nodup' : (t'.members.map (·.name)).Nodup
  allDeclared : t.AllDeclared

/-- A carrier is at its own name. -/
theorem get?_eq_some_iff (hnames : (t.members.map (·.name)).Nodup) {k : String} {c : Carrier} :
    t.get? k = some c ↔ c ∈ t.members ∧ c.name = k := by
  refine ⟨fun h => ⟨List.mem_of_find?_eq_some h, name_of_get? h⟩, ?_⟩
  rintro ⟨hc, rfl⟩
  cases h : t.get? c.name with
  | none => exact absurd (List.find?_eq_none.1 h c hc) (by simp)
  | some d =>
    rw [List.inj_on_of_nodup_map hnames (List.mem_of_find?_eq_some h) hc (name_of_get? h)]

theorem mem_declared_of_mem (hnames : (t.members.map (·.name)).Nodup) (hdeclared : t.AllDeclared)
    {c : Carrier} (hc : c ∈ t.members) : c.name ∈ t.declared :=
  hdeclared c.name (isActive_iff.2 ⟨c, (get?_eq_some_iff hnames).2 ⟨hc, rfl⟩⟩)

/-- A table that comes up with its carriers in another order. -/
theorem reordered_of_perm (hnames : (t.members.map (·.name)).Nodup) (hdeclared : t.AllDeclared)
    {l : List Carrier} (hl : l.Perm t.members) : t.Reordered { t with members := l } := by
  have hnames' : (l.map (·.name)).Nodup := (hl.map _).nodup_iff.2 hnames
  refine ⟨rfl, rfl, ?_, hnames, hnames', hdeclared⟩
  intro k
  refine Option.ext fun c => ?_
  rw [get?_eq_some_iff hnames, get?_eq_some_iff (t := { t with members := l }) hnames', hl.mem_iff]

namespace Reordered

theorem refl (hnames : (t.members.map (·.name)).Nodup) (hdeclared : t.AllDeclared) :
    t.Reordered t := ⟨rfl, rfl, fun _ => rfl, hnames, hnames, hdeclared⟩

theorem trans (h : t.Reordered t') (h' : t'.Reordered u) : t.Reordered u :=
  ⟨h'.declared.trans h.declared, h'.fromHeader.trans h.fromHeader,
    fun k => (h'.get? k).trans (h.get? k), h.nodup, h'.nodup', h.allDeclared⟩

theorem allDeclared' (h : t.Reordered t') : t'.AllDeclared := by
  intro name hname
  rw [h.declared]
  exact h.allDeclared name (by rwa [isActive, h.get?] at hname)

theorem perm (h : t.Reordered t') : t'.members.Perm t.members := by
  refine (List.perm_ext_iff_of_nodup h.nodup'.of_map h.nodup.of_map).2 fun c => ?_
  have hmem := get?_eq_some_iff h.nodup (k := c.name) (c := c)
  have hmem' := get?_eq_some_iff h.nodup' (k := c.name) (c := c)
  rw [h.get?] at hmem'
  simpa using hmem'.symm.trans hmem

theorem isActive (h : t.Reordered t') : t'.isActive = t.isActive := by
  funext k
  rw [Carriers.isActive, h.get?, Carriers.isActive]

theorem laneRank (h : t.Reordered t') : t'.laneRank = t.laneRank := by
  funext k
  rw [Carriers.laneRank, h.declared, Carriers.laneRank]

theorem lane? (h : t.Reordered t') : t'.lane? = t.lane? := by
  funext k
  rw [Carriers.lane?, h.declared, Carriers.lane?]

end Reordered

/-! ### The order of the lanes -/

/-- Carriers that are declared have different lanes. -/
theorem eq_of_laneRank_eq {name name' : String} (h : name ∈ t.declared) (h' : name' ∈ t.declared)
    (hrank : t.laneRank name = t.laneRank name') : name = name' := by
  obtain ⟨i, hi⟩ := Option.isSome_iff_exists.1 (List.isSome_idxOf?.2 h)
  obtain ⟨i', hi'⟩ := Option.isSome_iff_exists.1 (List.isSome_idxOf?.2 h')
  simp only [Carriers.laneRank, hi, hi', Option.getD_some] at hrank
  obtain ⟨hlt, hname, -⟩ := List.idxOf?_eq_some_iff.1 hi
  obtain ⟨hlt', hname', -⟩ := List.idxOf?_eq_some_iff.1 hi'
  subst hrank
  exact hname.symm.trans hname'

theorem active_perm (t : Carriers) : t.active.Perm t.members := List.mergeSort_perm ..

theorem pairwise_active_le (t : Carriers) :
    t.active.Pairwise fun c d => t.laneRank c.name ≤ t.laneRank d.name := by
  let le (c d : Carrier) : Bool := t.laneRank c.name ≤ t.laneRank d.name
  have htrans : ∀ a b c, le a b = true → le b c = true → le a c = true := by
    intro a b c hab hbc
    exact decide_eq_true ((of_decide_eq_true hab).trans (of_decide_eq_true hbc))
  have htotal : ∀ a b, (le a b || le b a) = true := by
    intro a b
    simp only [le, Bool.or_eq_true, decide_eq_true_eq]
    exact Nat.le_total ..
  have hsorted := List.pairwise_mergeSort htrans htotal t.members
  simpa [Carriers.active, le] using hsorted

/-- The active carriers come up in the order of their lanes, each once. -/
theorem pairwise_active_lt (hnames : (t.members.map (·.name)).Nodup) (hdeclared : t.AllDeclared) :
    t.active.Pairwise fun c d => t.laneRank c.name < t.laneRank d.name := by
  have hne : t.active.Pairwise fun c d => c.name ≠ d.name :=
    (t.active_perm.pairwise_iff Ne.symm).2 (List.pairwise_map.1 hnames)
  refine (t.pairwise_active_le.and hne).imp_of_mem ?_
  rintro c d hc hd ⟨hle, hname⟩
  have hmem : ∀ {c : Carrier}, c ∈ t.active → c.name ∈ t.declared := fun hc =>
    mem_declared_of_mem hnames hdeclared (t.active_perm.mem_iff.1 hc)
  exact Nat.lt_of_le_of_ne hle fun heq => hname (eq_of_laneRank_eq (hmem hc) (hmem hd) heq)

/-- In whatever order a table comes up with its carriers, by lane they are the same. -/
theorem Reordered.active (h : t.Reordered t') : t'.active = t.active := by
  have hsorted := t'.pairwise_active_le
  rw [h.laneRank] at hsorted
  refine List.Perm.eq_of_pairwise ?_ hsorted t.pairwise_active_le
    ((t'.active_perm.trans h.perm).trans t.active_perm.symm)
  intro c d hc hd hle hge
  have hc : c ∈ t.members := h.perm.mem_iff.1 (t'.active_perm.mem_iff.1 hc)
  have hd : d ∈ t.members := t.active_perm.mem_iff.1 hd
  refine List.inj_on_of_nodup_map h.nodup hc hd ?_
  exact eq_of_laneRank_eq (mem_declared_of_mem h.nodup h.allDeclared hc)
    (mem_declared_of_mem h.nodup h.allDeclared hd) (Nat.le_antisymm hle hge)

/-! ### Operations -/

namespace Reordered

/-- What does the same at each name keeps two tables the same. -/
theorem change (h : t.Reordered t') {f : String → Option Carrier → Option Carrier}
    (hu : ∀ k, u.get? k = f k (t.get? k)) (hu' : ∀ k, u'.get? k = f k (t'.get? k))
    (hkept : u.declared = t.declared ∧ u.fromHeader = t.fromHeader)
    (hkept' : u'.declared = t'.declared ∧ u'.fromHeader = t'.fromHeader)
    (hnodup : (u.members.map (·.name)).Nodup) (hnodup' : (u'.members.map (·.name)).Nodup)
    (hdeclared : u.AllDeclared) : u.Reordered u' where
  declared := by rw [hkept.1, hkept'.1, h.declared]
  fromHeader := by rw [hkept.2, hkept'.2, h.fromHeader]
  get? k := by rw [hu, hu', h.get?]
  nodup := hnodup
  nodup' := hnodup'
  allDeclared := hdeclared

theorem mapMembers (h : t.Reordered t') {f : Carrier → Carrier} (hf : ∀ c, (f c).name = c.name) :
    (t.mapMembers f).Reordered (t'.mapMembers f) := by
  refine h.change (f := fun _ c => c.map f) (get?_mapMembers hf t) (get?_mapMembers hf t')
    ⟨rfl, rfl⟩ ⟨rfl, rfl⟩ ?_ ?_ ?_
  · rw [names_mapMembers hf]
    exact h.nodup
  · rw [names_mapMembers hf]
    exact h.nodup'
  · intro name hname
    exact h.allDeclared name (by rwa [isActive_mapMembers hf] at hname)

theorem park (h : t.Reordered t') (names : List String) (last : LastStitch) :
    (t.park names last).Reordered (t'.park names last) := by
  rw [park_eq_mapMembers, park_eq_mapMembers]
  refine h.mapMembers fun c => ?_
  split <;> rfl

theorem update (h : t.Reordered t') (name : String) {f : Carrier → Carrier}
    (hf : ∀ c, (f c).name = c.name) : (t.update name f).Reordered (t'.update name f) := by
  refine h.mapMembers fun c => ?_
  split
  · exact hf c
  · rfl

theorem afterKick (h : t.Reordered t') (kick : Pass) :
    (t.afterKick kick).Reordered (t'.afterKick kick) := by
  cases honly : kick.onlySlot? with
  | none => simpa only [Carriers.afterKick, honly] using h
  | some slot =>
    rw [afterKick_eq honly, afterKick_eq honly]
    refine h.mapMembers fun c => ?_
    split <;> rfl

theorem removeAll (h : t.Reordered t') (names : List String) :
    (t.removeAll names).Reordered (t'.removeAll names) := by
  refine h.change (f := fun k c => if k ∈ names then none else c) (get?_removeAll t names)
    (get?_removeAll t' names) (removeAll_declared t names) (removeAll_declared t' names)
    (nodup_names_removeAll h.nodup names) (nodup_names_removeAll h.nodup' names) ?_
  refine Machine.allDeclared_of_le h.allDeclared (removeAll_declared t names).1 ?_
  intro name hname
  rw [Carriers.isActive, get?_removeAll] at hname
  split at hname
  · simp at hname
  · exact hname

/-- A group is refused for the same reason, or brought in. -/
theorem bringIn (h : t.Reordered t') (kind : InKind) (names : List String) :
    (∃ e, t.bringIn kind names = .error e ∧ t'.bringIn kind names = .error e) ∨
      ∃ u u', t.bringIn kind names = .ok u ∧ t'.bringIn kind names = .ok u' ∧ u.Reordered u' := by
  have halike : t.Alike True t' :=
    ⟨funext fun k => by rw [standing, standing, h.get?], h.fromHeader.symm,
      fun _ => h.declared.symm⟩
  refine (halike.bringIn kind names).imp_right ?_
  rintro ⟨u, u', hin, hin', -⟩
  obtain ⟨hdeclared, hheader, hget⟩ := bringIn_spec hin
  obtain ⟨hdeclared', hheader', hget'⟩ := bringIn_spec hin'
  refine ⟨u, u', hin, hin', ⟨?_, ?_, ?_, nodup_names_bringIn h.nodup hin,
    nodup_names_bringIn h.nodup' hin',
    Machine.LeftByFailure.allDeclared (.inr (.inl ⟨_, _, hin⟩)) h.allDeclared⟩⟩
  · rw [hdeclared, hdeclared', h.declared]
  · rw [hheader, hheader', h.fromHeader]
  · intro k
    rw [hget, hget', h.get?]

theorem declareHeader (h : t.Reordered t') (names : List String) :
    (t.declareHeader names).1.Reordered (t'.declareHeader names).1 ∧
      (t'.declareHeader names).2 = (t.declareHeader names).2 := by
  unfold Carriers.declareHeader
  rw [h.fromHeader, h.declared]
  split
  · exact ⟨h, rfl⟩
  · refine ⟨⟨rfl, rfl, h.get?, h.nodup, h.nodup', ?_⟩, rfl⟩
    intro name hname
    exact mem_appendNew.2 (.inr (h.allDeclared name hname))

end Reordered

end Carriers

namespace Machine

open Carriers

/-! ### Using a group -/

section Use

variable {t t' : Carriers}

theorem reordered_takePending (h : t.Reordered t') (names : List String) :
    (takePending t names).1.Reordered (takePending t' names).1 ∧
      (takePending t' names).2 = (takePending t names).2 := by
  rw [takePending_eq, takePending_eq]
  refine List.foldl_rel (r := fun s s' : Carriers × Option PendingIn =>
    s.1.Reordered s'.1 ∧ s'.2 = s.2) ⟨h, rfl⟩ ?_
  rintro name - s s' ⟨h, hs⟩
  unfold takeOne
  rw [h.get?]
  split
  · exact ⟨h, hs⟩
  · exact ⟨h.update name fun _ => rfl, rfl⟩

theorem reordered_use (h : t.Reordered t') (names : List String) (p : Pass) :
    (use t names p).1.Reordered (use t' names p).1 ∧ (use t' names p).2 = (use t names p).2 := by
  obtain ⟨htaken, hpending⟩ := reordered_takePending h names
  obtain ⟨hused, hpass⟩ := use_rel (S := Eq) p p h h.isActive.symm htaken hpending.symm
    rfl fun _ => rfl
  refine ⟨hused, ?_⟩
  rcases hpass with ⟨e, he, he'⟩ | ⟨q, q', hq, hq', rfl⟩
  · rw [he, he']
  · rw [hq, hq']

theorem outRefusal?_of_reordered (h : t.Reordered t') (names : List String) :
    outRefusal? t' names = outRefusal? t names := by
  unfold outRefusal?
  simp only [h.get?]

end Use

end Machine

/-! ## Scheduling a pass -/

namespace Submission

/-- Two submissions that differ in the order of their carriers only. -/
structure Reordered (s s' : Submission) : Prop where
  carriers : s.carriers.Reordered s'.carriers
  schedule : s'.schedule = s.schedule
  settled : s'.settled = s.settled
  kicks : s'.kicks = s.kicks
  events : s'.events = s.events

variable {s s' : Submission} {racking : Float}

/-- Who is in the way of a pass, and in which order, does not depend on the order of the table. -/
theorem blockers_of_reordered {t t' : Carriers} (h : t.Reordered t') (p : Pass) (racking : Float)
    (settled : List String) : p.blockers t' racking settled = p.blockers t racking settled := by
  unfold Pass.blockers
  rw [h.active]

theorem Reordered.emit (h : s.Reordered s') (p : Pass) : (s.emit p).Reordered (s'.emit p) := by
  unfold Submission.emit
  rw [h.schedule, h.kicks, h.events]
  refine ⟨?_, rfl, h.settled, rfl, rfl⟩
  dsimp only
  split
  · exact h.carriers.afterKick p
  · exact h.carriers

theorem Reordered.settle (h : s.Reordered s') (blockers : List Blocker) :
    (s.settle blockers).Reordered (s'.settle blockers) :=
  ⟨h.carriers, h.schedule, congrArg (· ++ _) h.settled, h.kicks, congrArg (· ++ _) h.events⟩

theorem Reordered.resolve (h : s.Reordered s') (depth : Nat) (p : Pass) :
    (Submission.resolve racking depth s p).Reordered (Submission.resolve racking depth s' p) := by
  induction depth generalizing s s' p with
  | zero => exact h.emit p
  | succ depth ih =>
    rw [Submission.resolve, Submission.resolve, h.settled, blockers_of_reordered h.carriers]
    refine Reordered.emit ?_ p
    have hfold : ∀ (blockers : List Blocker) {s s' : Submission}, s.Reordered s' →
        (blockers.foldl (fun s b => Submission.resolve racking depth s (p.kickFor b.slot b.name))
          s).Reordered (blockers.foldl
            (fun s b => Submission.resolve racking depth s (p.kickFor b.slot b.name)) s') := by
      intro blockers
      induction blockers with
      | nil => exact id
      | cons b blockers ihBlockers => exact fun h => ihBlockers (ih h _)
    exact hfold _ (h.settle _)

end Submission

/-- A pass is refused for the same reason, or scheduled with the same kicks. -/
theorem Schedule.reordered_submit {t t' : Carriers} (h : t.Reordered t') (schedule : Schedule)
    (racking : Float) (p : Pass) :
    (∃ e, schedule.submit t racking p = .error e ∧ schedule.submit t' racking p = .error e) ∨
      ∃ r r', schedule.submit t racking p = .ok r ∧ schedule.submit t' racking p = .ok r' ∧
        r.Reordered r' := by
  unfold submit
  cases p.validate with
  | error e => exact .inl ⟨e, rfl, rfl⟩
  | ok =>
    refine .inr ⟨_, _, rfl, rfl, ?_⟩
    have hstart : Submission.Reordered ⟨schedule, t, p.carriers, 0, []⟩
        ⟨schedule, t', p.carriers, 0, []⟩ := ⟨h, rfl, rfl, rfl, rfl⟩
    rw [h.perm.length_eq]
    exact hstart.resolve _ p

/-! ## Instructions -/

namespace Machine

variable {α : Type} {m m' : Machine α}

/-- The same machine with its table in another order. -/
def Reordered (m m' : Machine α) : Prop :=
  ∃ t, m.carriers.Reordered t ∧ m' = { m with carriers := t }

/-- Two steps that differ in the order of the carriers only. -/
def SameStep (s s' : Step α) : Prop :=
  s.machine.Reordered s'.machine ∧ s'.outcome = s.outcome ∧ s'.events = s.events

theorem sameStep_with {t t' : Carriers} (h : t.Reordered t') (m : Machine α)
    (outcome : Except Error (Option Warning)) (events : List Event) :
    SameStep ⟨{ m with carriers := t }, outcome, events⟩
      ⟨{ m with carriers := t' }, outcome, events⟩ :=
  ⟨⟨t', h, rfl⟩, rfl, rfl⟩

section

variable {t : Carriers} (h : m.carriers.Reordered t)

include h

theorem sameStep_bringIn (kind : InKind) (names : List String) :
    SameStep (m.bringIn kind names) ({ m with carriers := t }.bringIn kind names) := by
  unfold bringIn
  split
  · exact sameStep_with h m _ _
  · rcases h.bringIn kind names with ⟨e, hin, hin'⟩ | ⟨u, u', hin, hin', hu⟩
    · rw [hin, hin']
      exact sameStep_with h m _ _
    · rw [hin, hin']
      cases kind with
      | plain => exact sameStep_with hu m _ _
      | hook =>
        dsimp only
        cases m.hook.hold names with
        | error e => exact sameStep_with hu m _ _
        | ok hook => exact sameStep_with hu { m with hook } _ _

theorem sameStep_releaseHook (names : List String) :
    SameStep (m.releaseHook names) ({ m with carriers := t }.releaseHook names) := by
  unfold releaseHook
  cases m.hook.release names with
  | error e => exact sameStep_with h m _ _
  | ok hook => exact sameStep_with h { m with hook, schedule := m.schedule.release.1 } _ _

theorem sameStep_takeOut (withHook : Bool) (names : List String) :
    SameStep (m.takeOut withHook names) ({ m with carriers := t }.takeOut withHook names) := by
  unfold takeOut
  rw [outRefusal?_of_reordered h]
  split
  · exact sameStep_with h m _ _
  · dsimp only
    split
    · exact sameStep_with h m _ _
    · split
      · exact sameStep_with h m _ _
      · exact sameStep_with (h.removeAll names)
          { m with schedule := (m.schedule.takeOut names _).1 } _ _

theorem sameStep_submit (p : Pass) (w : Option Warning) (events : List Event) :
    SameStep (m.submit p w events) ({ m with carriers := t }.submit p w events) := by
  unfold submit
  rcases Schedule.reordered_submit h m.schedule m.racking p with
    ⟨e, hsubmit, hsubmit'⟩ | ⟨r, r', hsubmit, hsubmit', hr⟩
  · rw [hsubmit, hsubmit']
    exact sameStep_with h m _ _
  · rw [hsubmit, hsubmit']
    dsimp only
    rw [hr.schedule, hr.kicks, hr.events]
    exact sameStep_with hr.carriers
      { m with schedule := r.schedule, kicks := m.kicks + r.kicks } _ _

theorem sameStep_withYarn (leader : String) (names : List String) (direction : Direction)
    (n : Needle) (p : Pass) (work : Fabric α → Lane → Fabric α × Option Warning × List Event) :
    SameStep (m.withYarn leader names direction n p work)
      ({ m with carriers := t }.withYarn leader names direction n p work) := by
  obtain ⟨hused, hpass⟩ := reordered_use h names p
  unfold withYarn
  dsimp only
  generalize use m.carriers names p = s at hused hpass ⊢
  generalize use t names p = s' at hused hpass ⊢
  obtain ⟨u, q⟩ := s
  obtain ⟨u', q'⟩ := s'
  dsimp only at hused hpass
  subst hpass
  cases q' with
  | error e => exact sameStep_with hused m _ _
  | ok q =>
    dsimp only
    rw [hused.lane?]
    cases u.lane? leader with
    | none => exact sameStep_with hused m _ _
    | some lane =>
      exact sameStep_submit (m := { m with carriers := _, fabric := (work m.fabric lane).1 })
        (hused.park names ⟨n, direction, m.config.stoppingDistance⟩) q _ _

theorem sameStep_stitchBare (op : StitchOp) (n : Needle) (slot : Int) :
    SameStep (m.stitchBare op n slot) ({ m with carriers := t }.stitchBare op n slot) := by
  unfold stitchBare
  cases op with
  | miss => exact sameStep_with h m _ _
  | tuck => exact sameStep_submit h _ _ _
  | knit =>
    dsimp only
    cases m.fabric.drop n with
    | error w => exact sameStep_with h m _ _
    | ok dropped => exact sameStep_submit (m := { m with fabric := dropped.1 }) h _ _ _

variable [Scalar α]

theorem sameStep_splitBare (source target : Needle) (p : Pass) :
    SameStep (m.splitBare source target p)
      ({ m with carriers := t }.splitBare source target p) := by
  unfold splitBare
  dsimp only
  rw [h.declared]
  cases m.fabric.transfer source target m.carriers.declared.length with
  | error w => exact sameStep_with h m _ _
  | ok moved => exact sameStep_submit (m := { m with fabric := moved.1 }) h _ _ _

theorem sameStep_stitch (op : StitchOp) (direction : Direction) (n : Needle)
    (names : List String) :
    SameStep (m.stitch op direction n names)
      ({ m with carriers := t }.stitch op direction n names) := by
  rw [stitch_eq, stitch_eq]
  dsimp only
  cases stitchSlot n m.racking with
  | error e => exact sameStep_with h m _ _
  | ok slot =>
    cases names with
    | nil => exact sameStep_stitchBare h op n slot
    | cons leader rest => exact sameStep_withYarn h ..

theorem sameStep_split (direction : Direction) (source target : Needle) (names : List String) :
    SameStep (m.split direction source target names)
      ({ m with carriers := t }.split direction source target names) := by
  rw [split_eq, split_eq]
  dsimp only
  cases splitPlace source target m.racking (!names.isEmpty) with
  | error e => exact sameStep_with h m _ _
  | ok place =>
    cases names with
    | nil => exact sameStep_splitBare h ..
    | cons leader rest => exact sameStep_withYarn h ..

end

variable [Scalar α]

/-- An instruction does the same to a machine whatever the order of its table. -/
theorem Reordered.execute (h : m.Reordered m') (i : Instruction) :
    SameStep (m.execute i) (m'.execute i) := by
  obtain ⟨t, h, rfl⟩ := h
  cases i with
  | bringIn kind names => exact sameStep_bringIn h kind names
  | releaseHook names => exact sameStep_releaseHook h names
  | takeOut withHook names => exact sameStep_takeOut h withHook names
  | stitch op direction n names => exact sameStep_stitch h op direction n names
  | split direction source target names => exact sameStep_split h direction source target names
  | rack racking => exact sameStep_with h { m with racking } _ _
  | pause => exact sameStep_with h m _ _
  | extension op => exact sameStep_with h m _ _
  | unsupported op => exact sameStep_with h m _ _

end Machine

end Knitting
