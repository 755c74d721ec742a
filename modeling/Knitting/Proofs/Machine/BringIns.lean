import Knitting.Proofs.Machine.Legal
import Knitting.Proofs.Machine.Valid
import Mathlib.Data.List.ReduceOption

set_option autoImplicit false

/-! # Groups that are brought in

A group that was brought in waits until an instruction uses it, and the pass that is begun for this
use brings it in. So over a session without errors the passes that bring groups in are the first
uses of the groups, in order (`Machine.groups_brought_in`). The machine keeps the group with each of
its carriers; what links these to the instructions is that a carrier waits just for the groups that
were brought in and not used since (`Carriers.Lists`). -/

namespace Knitting

/-! ## What a session is asked for -/

/-- What a session is asked for. -/
inductive Request where
  | header (names : List String)
  | execute (i : Instruction)

/-- The group that a request brings in. -/
def Request.bringIn? : Request → Option PendingIn
  | .execute (.bringIn kind names) => some ⟨kind, names⟩
  | _ => none

/-- The carriers that a request works with. -/
def Request.users : Request → List String
  | .execute i => i.users
  | .header _ => []

/-- A request works with carriers of a group. -/
def PendingIn.usedBy (p : PendingIn) (r : Request) : Bool := p.carriers.any (· ∈ r.users)

theorem PendingIn.usedBy_eq_false {r : Request} (h : r.users = []) (p : PendingIn) :
    p.usedBy r = false := by
  simp [usedBy, h]

namespace Request

/-- The groups that wait after some requests: those that were brought in and none of which was used
since. -/
def waiting : List Request → List PendingIn
  | [] => []
  | r :: rs => (r.bringIn?.filter fun p => !rs.any p.usedBy).toList ++ waiting rs

/-- The groups that some requests use for the first time, with the number of the request that does,
if others have been `done` before. -/
def firstUses (done : List Request) : List Request → List (PendingIn × Nat)
  | [] => []
  | r :: rs =>
    ((waiting done).filter (·.usedBy r)).map (·, done.length) ++ firstUses (done ++ [r]) rs

theorem waiting_concat (rs : List Request) (r : Request) :
    waiting (rs ++ [r]) = (waiting rs).filter (fun p => !p.usedBy r) ++ r.bringIn?.toList := by
  induction rs with
  | nil => cases hr : r.bringIn? <;> simp [waiting, hr]
  | cons r' rs ih =>
    rw [List.cons_append, waiting, ih, waiting, List.filter_append, List.append_assoc]
    congr 1
    cases r'.bringIn? with
    | none => rfl
    | some p =>
      cases hlater : rs.any p.usedBy <;> cases hnow : p.usedBy r <;>
        simp only [Option.filter_some, List.any_append, hlater] <;> simp [hnow]

end Request

/-! ## Passes that bring a group in -/

/-- The group that a pass brings in. -/
def Pass.broughtIn? (p : Pass) : Option PendingIn :=
  if p.gripper = some .bringIn then
    some ⟨if p.hook = some .bringIn then .hook else .plain, p.carriers⟩
  else none

namespace Pass

variable {p q joined : Pass}

theorem broughtIn?_eq_none (h : p.bringsIn = false) : p.broughtIn? = none := by
  simp only [bringsIn, Bool.or_eq_false_iff, decide_eq_false_iff_not] at h
  exact if_neg h.2

/-- A joined pass brings in what the first of the two does. -/
theorem broughtIn?_of_absorb? (h : p.absorb? q = some joined) :
    joined.broughtIn? = p.broughtIn? := by
  obtain ⟨-, hbrings, hhook, hgripper⟩ := actions_of_absorb? h
  obtain ⟨-, -, slots, -, hjoined⟩ := absorb?_eq_some h
  have hcarriers : joined.carriers = p.carriers := by rw [hjoined]
  simp only [bringsIn, Bool.or_eq_false_iff, decide_eq_false_iff_not] at hbrings
  simp only [broughtIn?, hhook, hgripper, hbrings, or_false, hcarriers]

end Pass

namespace Schedule

variable {s s' s'' : Schedule}

/-- What the passes bring in, one after the other. -/
def broughtIn (s : Schedule) : List (Option PendingIn) := s.passes.map Pass.broughtIn?

/-- A schedule goes on: what its passes bring in stays, and new passes bring in some groups. -/
def GoesOn (s s' : Schedule) (groups : List PendingIn) : Prop :=
  ∃ more, s'.broughtIn = s.broughtIn ++ more ∧ more.reduceOption = groups

theorem GoesOn.refl (s : Schedule) : s.GoesOn s [] := ⟨[], by simp, rfl⟩

theorem GoesOn.trans {groups groups' : List PendingIn} (h : s.GoesOn s' groups)
    (h' : s'.GoesOn s'' groups') : s.GoesOn s'' (groups ++ groups') := by
  obtain ⟨more, hmore, rfl⟩ := h
  obtain ⟨more', hmore', rfl⟩ := h'
  exact ⟨more ++ more', by rw [hmore', hmore, List.append_assoc], List.reduceOption_append ..⟩

theorem goesOn_append (s : Schedule) (p : Pass) :
    s.GoesOn (s.append p).1 p.broughtIn?.toList := by
  have hnew : ∀ mark : Option PendingIn, [mark].reduceOption = mark.toList := by
    rintro (_ | _) <;> rfl
  unfold append
  cases hopen : s.openPass with
  | none => exact ⟨[p.broughtIn?], by simp [broughtIn, passes, hopen], hnew _⟩
  | some last =>
    dsimp only
    split
    · next joined hjoin =>
      have hbrings : p.bringsIn = false := (Pass.actions_of_absorb? hjoin).2.1
      rw [Pass.broughtIn?_eq_none hbrings]
      refine ⟨[], ?_, rfl⟩
      simp [broughtIn, passes, hopen, Pass.broughtIn?_of_absorb? hjoin]
    · exact ⟨[p.broughtIn?], by simp [broughtIn, passes, hopen], hnew _⟩

theorem goesOn_appendAll (s : Schedule) (ps : List Pass) :
    s.GoesOn (s.appendAll ps) (ps.filterMap Pass.broughtIn?) := by
  induction ps generalizing s with
  | nil => exact .refl s
  | cons p ps ih =>
    have hcons : (p :: ps).filterMap Pass.broughtIn? =
        p.broughtIn?.toList ++ ps.filterMap Pass.broughtIn? := by
      cases h : p.broughtIn? <;> simp [h]
    rw [hcons]
    exact (s.goesOn_append p).trans (ih (s.append p).1)

/-- Another open pass that brings in the same. -/
theorem goesOn_reopen {p q : Pass} (hopen : s.openPass = some p)
    (h : q.broughtIn? = p.broughtIn?) : s.GoesOn { s with openPass := some q } [] :=
  ⟨[], by simp [broughtIn, passes, hopen, h], rfl⟩

theorem goesOn_takeOut (s : Schedule) (names : List String) (withHook : Bool) :
    s.GoesOn (s.takeOut names withHook).1 [] := by
  unfold takeOut
  cases hopen : s.openPass with
  | none => exact .refl s
  | some p =>
    dsimp only
    split
    · exact .refl s
    · next hfree =>
      have hgripper : p.gripper = none := by
        simp only [Bool.or_eq_true, not_or] at hfree
        simpa using hfree.1.2
      exact goesOn_reopen hopen (by simp [Pass.broughtIn?, hgripper])

theorem goesOn_release (s : Schedule) : s.GoesOn s.release.1 [] := by
  unfold release
  cases hopen : s.openPass with
  | none => exact .refl s
  | some p =>
    dsimp only
    split
    · next hfree =>
      have hhook : p.hook = none := by
        simp only [Bool.and_eq_true] at hfree
        simpa using hfree.1
      exact goesOn_reopen hopen (by simp [Pass.broughtIn?, hhook])
    · exact .refl s

/-- Scheduling a pass brings in what the pass does: the kicks for it bring in nothing. -/
theorem goesOn_submit {carriers : Carriers} {racking : Float} {p : Pass} {r : Submission}
    (hplain : s.EndsPlain) (hnames : (carriers.members.map (·.name)).Nodup) (hkick : p.kick = false)
    (hsubmit : s.submit carriers racking p = .ok r) :
    s.GoesOn r.schedule p.broughtIn?.toList := by
  obtain ⟨kicks, r', hsubmit', hcascade, -⟩ :=
    exists_cascade hplain hnames hkick (validate_of_submit hsubmit) racking
  obtain rfl := Except.ok.inj (hsubmit.symm.trans hsubmit')
  have hkicks : kicks.filterMap Pass.broughtIn? = [] := by
    rw [List.filterMap_eq_nil_iff]
    intro k hk
    obtain ⟨c, -, -, -, slot, direction, -, rfl⟩ := hcascade.kick k hk
    rfl
  have hgroups : (kicks ++ [p]).filterMap Pass.broughtIn? = p.broughtIn?.toList := by
    rw [List.filterMap_append, hkicks]
    cases h : p.broughtIn? <;> simp [h]
  rw [hcascade.emitted, ← hgroups]
  exact s.goesOn_appendAll _

end Schedule

/-! ## Using a group -/

namespace Carriers

/-- A list of all groups that carriers wait for, each once. -/
structure Lists (t : Carriers) (groups : List PendingIn) : Prop where
  waits_iff : ∀ name p, t.Waits name p ↔ p ∈ groups ∧ name ∈ p.carriers
  once : groups.Nodup

variable {t t' : Carriers} {groups : List PendingIn} {names : List String}

theorem Lists.congr (h : t.Lists groups) (hwaits : ∀ name p, t'.Waits name p ↔ t.Waits name p) :
    t'.Lists groups :=
  ⟨fun name p => (hwaits name p).trans (h.waits_iff name p), h.once⟩

theorem lists_nil (hmembers : t.members = []) : t.Lists [] :=
  ⟨fun name p => by simp [Waits, get?, hmembers], List.nodup_nil⟩

theorem Lists.bringIn (h : t.Lists groups) {kind : InKind} (hnames : names ≠ [])
    (hin : t.bringIn kind names = .ok t') : t'.Lists (groups ++ [⟨kind, names⟩]) := by
  have hnew : ∀ name ∈ names, ∀ p, ¬t.Waits name p := by
    rintro name hname p ⟨c, hc, -⟩
    have hactive := (exists_bringIn_eq_ok_iff.1 ⟨t', hin⟩).1 name hname
    simp [isActive, hc] at hactive
  refine ⟨?_, ?_⟩
  · intro name p
    rw [waits_bringIn hin, List.mem_append, List.mem_singleton]
    split
    · next hname =>
      constructor
      · rintro rfl
        exact ⟨.inr rfl, hname⟩
      · rintro ⟨hp | hp, hmem⟩
        · exact absurd ((h.waits_iff name p).2 ⟨hp, hmem⟩) (hnew name hname p)
        · exact hp
    · next hname =>
      rw [h.waits_iff, or_and_right, or_iff_left]
      rintro ⟨rfl, hmem⟩
      exact hname hmem
  · rw [← List.concat_eq_append]
    refine h.once.concat ?_
    intro hmem
    obtain ⟨name, hname⟩ := List.exists_mem_of_ne_nil names hnames
    exact hnew name hname _ ((h.waits_iff name _).2 ⟨hmem, hname⟩)

/-- Whoever is used waits for just the group that is used, if for any. -/
theorem Lists.release (h : t.Lists groups) (huse : t.CanUse names)
    (hwaits : ∀ name p, t'.Waits name p ↔ name ∉ names ∧ t.Waits name p) :
    t'.Lists (groups.filter fun p => !p.carriers.any (· ∈ names)) := by
  refine ⟨?_, h.once.filter _⟩
  intro name p
  rw [hwaits, h.waits_iff, List.mem_filter]
  constructor
  · rintro ⟨hname, hp, hmem⟩
    refine ⟨⟨hp, ?_⟩, hmem⟩
    rw [Bool.not_eq_true', List.any_eq_false]
    intro other hother hshared
    have hgroup :=
      huse.carriers_eq (of_decide_eq_true hshared) ((h.waits_iff other p).2 ⟨hp, hother⟩)
    exact hname (hgroup ▸ hmem)
  · rintro ⟨⟨hp, hfree⟩, hmem⟩
    refine ⟨?_, hp, hmem⟩
    intro hname
    rw [Bool.not_eq_true', List.any_eq_false] at hfree
    exact hfree name hmem (decide_eq_true hname)

/-- What a group waited for when it is used is the one listed group that is used, if any is. -/
theorem Lists.filter_used (h : t.Lists groups) (hgrouped : t.Grouped) (huse : t.CanUse names) :
    groups.filter (fun p => p.carriers.any (· ∈ names)) =
      (Machine.takePending t names).2.toList := by
  obtain ⟨hnone, hsome⟩ := Machine.takePending_spec t names
  have hused : ∀ p, p ∈ groups ∧ p.carriers.any (· ∈ names) = true ↔
      ∃ name ∈ names, t.Waits name p := by
    intro p
    rw [List.any_eq_true]
    constructor
    · rintro ⟨hp, name, hmem, hname⟩
      exact ⟨name, of_decide_eq_true hname, (h.waits_iff name p).2 ⟨hp, hmem⟩⟩
    · rintro ⟨name, hname, hwaits⟩
      obtain ⟨hp, hmem⟩ := (h.waits_iff name p).1 hwaits
      exact ⟨hp, name, hmem, decide_eq_true hname⟩
  cases hp : (Machine.takePending t names).2 with
  | none =>
    refine List.filter_eq_nil_iff.2 ?_
    intro p hmem hshared
    obtain ⟨name, hname, c, hc, hpending⟩ := (hused p).1 ⟨hmem, hshared⟩
    simp [hnone hp name hname c hc] at hpending
  | some p =>
    obtain ⟨name, hname, hwaits⟩ := hsome p hp
    have honly : ∀ q ∈ groups, q.carriers.any (· ∈ names) = (q == p) := by
      intro q hq
      rw [Bool.eq_iff_iff, beq_iff_eq]
      constructor
      · intro hshared
        -- All that is used waits for the same.
        obtain ⟨other, hother, hwaits'⟩ := (hused q).1 ⟨hq, hshared⟩
        have hgroup := huse.carriers_eq hname hwaits
        exact hwaits'.unique (hgrouped.group name p hwaits other (hgroup ▸ hother))
      · rintro rfl
        exact ((hused q).2 ⟨name, hname, hwaits⟩).2
    have hmem : p ∈ groups := ((hused p).2 ⟨name, hname, hwaits⟩).1
    rw [List.filter_congr honly, List.filter_beq, List.count_eq_one_of_mem h.once hmem]
    rfl

end Carriers

namespace Machine

section Use

variable {α : Type} {m : Machine α}

/-- From one machine to the other a group is used and parked and a pass with its yarn scheduled. -/
def Uses (m : Machine α) (names : List String) (m' : Machine α) : Prop :=
  ∃ kind slot op direction last t p r,
    use m.carriers names (m.singlePass kind slot op direction names) = (t, .ok p) ∧
      m.schedule.submit (t.park names last) m.racking p = .ok r ∧
      m'.schedule = r.schedule ∧ m'.carriers = r.carriers

theorem uses_withYarn {kind : PassKind} (hkind : kind.isTransfer = false) {leader : String}
    {rest : List String} {direction : Direction} {n : Needle} {slot : Int} {op : SlotOp}
    {work : Fabric α → Lane → Fabric α × Option Warning × List Event}
    (h : (m.withYarn leader (leader :: rest) direction n
      (m.singlePass kind slot op direction (leader :: rest)) work).Succeeds) :
    m.Uses (leader :: rest) (m.withYarn leader (leader :: rest) direction n
      (m.singlePass kind slot op direction (leader :: rest)) work).machine := by
  unfold withYarn at h ⊢
  split at h
  · exact absurd h (not_succeeds_fail _ _)
  · next t p huse =>
    split at h
    · exact absurd h (not_succeeds_fail _ _)
    · next lane hlane =>
      obtain ⟨r, hsubmit, hstep⟩ := submit_eq_of_validate
        (validate_of_use hkind (List.cons_ne_nil _ _) huse)
        ({ m with carriers := t, fabric := (work m.fabric lane).1 }.park (leader :: rest) direction
          n) (work m.fabric lane).2.1 (work m.fabric lane).2.2
      dsimp only
      rw [hstep]
      exact ⟨_, _, _, _, _, t, p, r, huse, hsubmit, rfl, rfl⟩

variable [Scalar α]

/-- An instruction with carriers that succeeds uses them. -/
theorem uses_of_succeeds {i : Instruction} (h : (m.execute i).Succeeds) (hi : i.users ≠ []) :
    m.Uses i.users (m.execute i).machine := by
  cases i with
  | stitch op direction n names =>
    change (m.stitch op direction n names).Succeeds at h
    change m.Uses names (m.stitch op direction n names).machine
    rcases m.stitch_cases op direction n names with
      ⟨e, heq⟩ | ⟨slot, rfl, heq⟩ | ⟨leader, rest, slot, rfl, heq⟩
    · exact absurd (heq ▸ h) (not_succeeds_fail _ _)
    · exact absurd rfl hi
    · rw [heq] at h ⊢
      exact uses_withYarn rfl h
  | split direction source target names =>
    change (m.split direction source target names).Succeeds at h
    change m.Uses names (m.split direction source target names).machine
    rcases m.split_cases direction source target names with
      ⟨e, heq⟩ | ⟨rfl, -⟩ | ⟨leader, rest, kind, slot, rfl, hkind, heq⟩
    · exact absurd (heq ▸ h) (not_succeeds_fail _ _)
    · exact absurd rfl hi
    · rw [heq] at h ⊢
      exact uses_withYarn hkind h
  | _ => exact absurd rfl hi

end Use

/-! ## Requests one after the other -/

section Requests

variable {α : Type} [Scalar α] {config : Config α} {m : Machine α}

/-- A machine after a request. -/
def handle (m : Machine α) : Request → Machine α
  | .header names => { m with carriers := (m.carriers.declareHeader names).1 }
  | .execute i => (m.execute i).machine

def handleAll (m : Machine α) (rs : List Request) : Machine α := rs.foldl handle m

/-- The instructions among some requests were read from lines and succeed, one after the other. -/
def Accepts (m : Machine α) : List Request → Prop
  | [] => True
  | r :: rs => (∀ i, r = .execute i → Errorless i (m.execute i)) ∧ (m.handle r).Accepts rs

theorem accepts_header {rs : List Request} (names : List String)
    (h : (m.handle (.header names)).Accepts rs) : m.Accepts (.header names :: rs) :=
  ⟨nofun, h⟩

theorem accepts_execute {i : Instruction} {rs : List Request} (line : String) {w : Option Warning}
    (hparse : Instruction.parse line.toList = .ok (some i)) (hok : (m.execute i).outcome = .ok w)
    (h : (m.handle (.execute i)).Accepts rs) : m.Accepts (.execute i :: rs) := by
  refine ⟨?_, h⟩
  rintro _ ⟨⟩
  exact ⟨⟨_, hparse⟩, w, hok⟩

/-- For each pass that some requests begin the number of the request that begins it, if there have
been `count` before. -/
def begun (m : Machine α) (count : Nat) : List Request → List Nat
  | [] => []
  | r :: rs =>
    List.replicate ((m.handle r).schedule.passes.length - m.schedule.passes.length) count ++
      (m.handle r).begun (count + 1) rs

theorem Reachable.handle (h : Reachable config Errorless m) {r : Request}
    (hr : ∀ i, r = .execute i → Errorless i (m.execute i)) :
    Reachable config Errorless (m.handle r) := by
  cases r with
  | header names => exact h.header names
  | execute i => exact h.execute (hr i rfl)

theorem Reachable.handleAll (h : Reachable config Errorless m) {rs : List Request}
    (hrs : m.Accepts rs) : Reachable config Errorless (m.handleAll rs) := by
  induction rs generalizing m with
  | nil => exact h
  | cons r rs ih => exact ih (h.handle hrs.1) hrs.2

/-- What a session keeps of the groups that were brought in: the carriers list those that wait after
some requests, and its passes have brought in the groups that a request uses. -/
def Follows (m m' : Machine α) (groups : List PendingIn) (r : Request) : Prop :=
  m'.carriers.Lists (groups.filter (fun p => !p.usedBy r) ++ r.bringIn?.toList) ∧
    m.schedule.GoesOn m'.schedule (groups.filter (·.usedBy r))

variable {groups : List PendingIn}

omit [Scalar α] in
/-- A request that neither uses carriers nor brings some in. -/
theorem follows_of_idle {m' : Machine α} {r : Request} (hlists : m.carriers.Lists groups)
    (husers : r.users = []) (hin : r.bringIn? = none)
    (hwaits : ∀ name p, m'.carriers.Waits name p ↔ m.carriers.Waits name p)
    (hgoes : m.schedule.GoesOn m'.schedule []) : m.Follows m' groups r := by
  have hnone := PendingIn.usedBy_eq_false husers
  refine ⟨?_, ?_⟩
  · simpa [hnone, hin] using hlists.congr hwaits
  · simpa [hnone] using hgoes

theorem follows_of_uses {m' : Machine α} {i : Instruction} (hm : Reachable config Errorless m)
    (hlists : m.carriers.Lists groups) (hi : i.users ≠ []) (huses : m.Uses i.users m') :
    m.Follows m' groups (.execute i) := by
  obtain ⟨kind, slot, op, direction, last, t, p, r, huse, hsubmit, hschedule, hcarriers⟩ := huses
  have hgrouped := hm.orderly.grouped
  have hcan : m.carriers.CanUse i.users := (exists_use_eq_ok_iff hgrouped _).1 ⟨t, p, huse⟩
  obtain ⟨-, rfl, hpass⟩ := use_eq_ok_iff.1 huse
  have hin : (Request.execute i).bringIn? = none := by
    cases i with
    | bringIn => exact absurd rfl hi
    | _ => rfl
  have hnames : (((takePending m.carriers i.users).1.park i.users last).members.map
      (·.name)).Nodup := by
    rw [Carriers.names_park, names_takePending]
    exact hm.nodup_names
  have hmark : p.broughtIn? = (takePending m.carriers i.users).2 := by
    rcases hpass with ⟨hnone, rfl⟩ | ⟨⟨_ | _, group⟩, hsome, rfl, rfl⟩
    · exact hnone.symm
    · exact hsome.symm
    · exact hsome.symm
  refine ⟨?_, ?_⟩
  · rw [hcarriers, hin, Option.toList_none, List.append_nil]
    refine (hlists.release hcan ?_ : r.carriers.Lists _)
    intro name q
    rw [(Schedule.moved_submit hsubmit).waits_iff, waits_used]
  · have hgoes := Schedule.goesOn_submit hm.countsKicks.plain hnames (kick_of_use huse) hsubmit
    rw [hschedule]
    rwa [hmark, ← hlists.filter_used hgrouped hcan] at hgoes

/-- An instruction that works with no carriers and succeeds. -/
theorem follows_of_effect {m' : Machine α} {i : Instruction} (hm : Reachable config Errorless m)
    (hlists : m.carriers.Lists groups) (hi : i.users = []) (hbroughtIn : i.broughtIn = [] →
      (Request.execute i).bringIn? = none) (h : m.Effect i m') :
    m.Follows m' groups (.execute i) := by
  have hplain := hm.countsKicks.plain
  cases h with
  | idle hin => exact follows_of_idle hlists hi (hbroughtIn hin) (fun _ _ => .rfl) (.refl _)
  | @bringIn kind names _ _ hnames hin _ =>
    have hnone := PendingIn.usedBy_eq_false (r := .execute (.bringIn kind names)) rfl
    refine ⟨?_, ?_⟩
    · simpa [hnone, Request.bringIn?] using hlists.bringIn hnames hin
    · simpa [hnone] using Schedule.GoesOn.refl m.schedule
  | releaseHook _ =>
    exact follows_of_idle hlists rfl rfl (fun _ _ => .rfl) (Schedule.goesOn_release _)
  | takeOut _ hout _ =>
    refine follows_of_idle hlists rfl rfl ?_ (Schedule.goesOn_takeOut _ _ _)
    intro name p
    rw [Carriers.waits_removeAll, and_iff_right_iff_imp]
    intro hwaits hname
    obtain ⟨c, hc, hlast⟩ := outRefusal?_eq_none_iff.1 hout name hname
    exact hm.orderly.grouped.not_waits hc hlast p hwaits
  | rack => exact follows_of_idle hlists rfl rfl (fun _ _ => .rfl) (.refl _)
  | bare hbare hsubmit =>
    have hin : i.broughtIn = [] := by
      rcases hbare with ⟨op, direction, n, rfl⟩ | ⟨direction, source, target, rfl⟩ <;> rfl
    exact follows_of_idle hlists hi (hbroughtIn hin)
      (Schedule.moved_submit hsubmit).waits_iff
      (Schedule.goesOn_submit hplain hm.nodup_names rfl hsubmit)
  | yarn huser hnames =>
    rcases huser with ⟨op, rfl⟩ | ⟨target, rfl⟩ <;> exact absurd hi hnames

/-- A request that is accepted keeps the list. -/
theorem follows_handle (hm : Reachable config Errorless m) (hlists : m.carriers.Lists groups)
    {r : Request} (hr : ∀ i, r = .execute i → Errorless i (m.execute i)) :
    m.Follows (m.handle r) groups r := by
  cases r with
  | header names =>
    have hwaits := Carriers.waits_congr (members_declareHeader m.carriers names)
    exact follows_of_idle hlists rfl rfl (fun name p => by rw [handle, hwaits]) (.refl _)
  | execute i =>
    have hsucceeds := (hr i rfl).2
    by_cases husers : i.users = []
    · refine follows_of_effect hm hlists husers ?_ (effect_of_succeeds hsucceeds)
      intro hin
      cases i with
      | bringIn kind names => exact absurd hin (bringIn_succeeds_iff.1 hsucceeds).1
      | _ => rfl
    · exact follows_of_uses hm hlists husers (uses_of_succeeds hsucceeds husers)

/-! ## Sessions -/

/-- What one request begins, with its number. -/
theorem filterMap_zip_replicate (more : List (Option PendingIn)) (count : Nat) :
    (more.zip (List.replicate more.length count)).filterMap (fun (group, k) => group.map (·, k)) =
      more.reduceOption.map (·, count) := by
  induction more with
  | nil => rfl
  | cons group more ih =>
    rw [List.length_cons, List.replicate_succ, List.zip_cons_cons]
    cases group with
    | none => simpa using ih
    | some p => simpa using ih

/-- The passes that a session begins bring in the groups that it uses for the first time, each on a
pass that is begun by this use. -/
theorem broughtIn_handleAll {done : List Request} {rs : List Request}
    (hm : Reachable config Errorless m) (hlists : m.carriers.Lists (Request.waiting done))
    (hrs : m.Accepts rs) :
    ∃ more, (m.handleAll rs).schedule.broughtIn = m.schedule.broughtIn ++ more ∧
      more.length = (m.begun done.length rs).length ∧
      (more.zip (m.begun done.length rs)).filterMap (fun (group, k) => group.map (·, k)) =
        Request.firstUses done rs := by
  induction rs generalizing m done with
  | nil => exact ⟨[], by simp [handleAll], rfl, rfl⟩
  | cons r rs ih =>
    obtain ⟨hnext, more, hmore, hgroups⟩ := follows_handle hm hlists hrs.1
    rw [← Request.waiting_concat] at hnext
    obtain ⟨later, hlater, hlength, huses⟩ := ih (hm.handle hrs.1) hnext hrs.2
    rw [List.length_append, List.length_singleton] at hlength huses
    have hcount : (m.handle r).schedule.passes.length - m.schedule.passes.length = more.length := by
      have hlen := congrArg List.length hmore
      simp only [Schedule.broughtIn, List.length_append, List.length_map] at hlen
      omega
    refine ⟨more ++ later, ?_, ?_, ?_⟩
    · rw [← List.append_assoc, ← hmore, ← hlater]
      rfl
    · rw [begun, hcount, List.length_append, List.length_append, List.length_replicate, hlength]
    · rw [begun, hcount, List.zip_append List.length_replicate.symm, List.filterMap_append,
        filterMap_zip_replicate, hgroups, huses, Request.firstUses]

/-- After requests without an error a carrier that waits has not been parked, is of the group that
it waits for, and all of this group waits for the same. The passes that bring groups in are in order
the first uses of those that were brought in: each has the carriers of one, uses the hook just if
they came in with it, and is begun by the request that uses it. -/
theorem groups_brought_in {names : List String} {carriers : Carriers} {rs : List Request}
    (hdeclared : Carriers.empty.declareAll names = .ok carriers)
    (hrs : ({ initial config with carriers } : Machine α).Accepts rs) :
    let start : Machine α := { initial config with carriers }
    let m := start.handleAll rs
    (∀ name c, m.carriers.get? name = some c → ∀ p, c.pending = some p →
        c.last = none ∧ name ∈ p.carriers ∧
          ∀ other ∈ p.carriers, ∃ d, m.carriers.get? other = some d ∧ d.pending = some p) ∧
      ∀ warnings, let passes := (m.output warnings).passes
        passes.length = (start.begun 0 rs).length ∧
          (passes.zip (start.begun 0 rs)).filterMap (fun (p, k) => p.broughtIn?.map (·, k)) =
            Request.firstUses [] rs := by
  intro start m
  have hstart : Reachable config Errorless start := .start hdeclared
  have hgrouped := (hstart.handleAll hrs).orderly.grouped
  refine ⟨?_, fun _ => ?_⟩
  · intro name c hc p hp
    have hwaits : m.carriers.Waits name p := ⟨c, hc, hp⟩
    exact ⟨hgrouped.unparked name c hc (by simp [hp]), hgrouped.own name p hwaits,
      hgrouped.group name p hwaits⟩
  · have hnone : start.carriers.Lists (Request.waiting []) := by
      obtain ⟨-, rfl⟩ := Carriers.declareAll_eq_ok_iff.1 hdeclared
      exact Carriers.lists_nil rfl
    obtain ⟨more, hmore, hlength, huses⟩ := broughtIn_handleAll hstart hnone hrs
    have hpasses : m.schedule.passes.map Pass.broughtIn? = more := hmore
    rw [← hpasses, List.length_map] at hlength
    rw [← hpasses, List.zip_map_left, List.filterMap_map] at huses
    exact ⟨hlength, huses⟩

/-- One carrier comes in with the hook and goes out after a stitch, another one comes in and
stitches, and a third one still waits. -/
theorem groups_brought_in_by_turns :
    let rs : List Request := [.execute (.bringIn .hook ["A"]),
      .execute (.stitch .knit .right (.front 4) ["A"]), .execute (.takeOut false ["A"]),
      .header ["B", "C"], .execute (.bringIn .plain ["B"]),
      .execute (.stitch .knit .left (.front 4) ["B"]), .execute (.bringIn .plain ["C"])]
    let start : Machine Float32 := { initial Config.standard with carriers := .empty }
    let uses := [(⟨.hook, ["A"]⟩, 1), (⟨.plain, ["B"]⟩, 5)]
    (start.begun 0 rs = [1, 5] ∧ Request.firstUses [] rs = uses) ∧
      (((start.handleAll rs).output []).passes.zip (start.begun 0 rs)).filterMap
        (fun (p, k) => p.broughtIn?.map (·, k)) = uses := by
  intro rs start uses
  have hdeclared : Carriers.empty.declareAll [] = .ok .empty := rfl
  have hrs : start.Accepts rs := by
    refine accepts_execute (w := none) "inhook A" (by decide +kernel) (by decide +kernel) ?_
    refine accepts_execute (w := none) "knit + f4 A" (by decide +kernel) (by decide +kernel) ?_
    refine accepts_execute (w := none) "out A" (by decide +kernel) (by decide +kernel) ?_
    refine accepts_header ["B", "C"] ?_
    refine accepts_execute (w := none) "in B" (by decide +kernel) (by decide +kernel) ?_
    refine accepts_execute (w := none) "knit - f4 B" (by decide +kernel) (by decide +kernel) ?_
    refine accepts_execute (w := none) "in C" (by decide +kernel) (by decide +kernel) ?_
    trivial
  have huses : Request.firstUses [] rs = uses := by decide +kernel
  exact ⟨⟨by decide +kernel, huses⟩, ((groups_brought_in hdeclared hrs).2 []).2.trans huses⟩

end Requests

end Machine

end Knitting
