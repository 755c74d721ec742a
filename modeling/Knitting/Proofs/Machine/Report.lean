import Knitting.Proofs.Fabric.Occupied
import Knitting.Proofs.Machine.Session

set_option autoImplicit false

/-! # What an instruction reports

Whether an instruction succeeds, fails or warns depends on little of the machine: on the hook and
the racking, on which carriers are active, parked and waiting, on which needles are occupied, and
after a header on what is declared. Machines that agree in this much are alike (`Machine.Alike`).
Alike machines report the same for every instruction and are alike after it
(`Machine.Alike.execute`), even if their carriers lie in other lanes, their stitches have other
sizes and their passes are scheduled otherwise. -/

namespace Knitting

/-! ## Carriers -/

/-- What reports can depend on of an active carrier: what it waits for, and whether it is parked. -/
def Carrier.standing (c : Carrier) : Option PendingIn × Bool := (c.pending, c.last.isSome)

namespace Carriers

def standing (t : Carriers) (name : String) : Option (Option PendingIn × Bool) :=
  (t.get? name).map Carrier.standing

/-- Every active carrier is declared. -/
def AllDeclared (t : Carriers) : Prop := ∀ name, t.isActive name = true → name ∈ t.declared

/-- Two tables tell the same of every active carrier, and both have a header or none. What they
declare has to be the same after a header, and also without one if `lanes` asks for it. -/
structure Alike (lanes : Prop) (t t' : Carriers) : Prop where
  standing : t.standing = t'.standing
  fromHeader : t.fromHeader = t'.fromHeader
  declared : lanes ∨ t.fromHeader = true → t.declared = t'.declared

variable {lanes : Prop} {t t' u u' : Carriers}

theorem Alike.refl (t : Carriers) : t.Alike lanes t := ⟨rfl, rfl, fun _ => rfl⟩

/-- What changes standings alike, and nothing else, keeps tables alike. -/
theorem Alike.change (h : t.Alike lanes t')
    {f : String → Option (Option PendingIn × Bool) → Option (Option PendingIn × Bool)}
    (hu : ∀ k, u.standing k = f k (t.standing k)) (hu' : ∀ k, u'.standing k = f k (t'.standing k))
    (hkept : u.declared = t.declared ∧ u.fromHeader = t.fromHeader)
    (hkept' : u'.declared = t'.declared ∧ u'.fromHeader = t'.fromHeader) : u.Alike lanes u' where
  standing := by
    funext k
    rw [hu, hu', h.standing]
  fromHeader := by rw [hkept.2, hkept'.2, h.fromHeader]
  declared hlanes := by
    rw [hkept.2] at hlanes
    rw [hkept.1, hkept'.1, h.declared hlanes]

theorem Alike.isActive (h : t.Alike lanes t') : t.isActive = t'.isActive := by
  have hstanding : ∀ t : Carriers, t.isActive = fun name => (t.standing name).isSome := by
    intro t
    funext name
    simp [Carriers.isActive, Carriers.standing]
  rw [hstanding, hstanding, h.standing]

/-! ### Bringing in -/

/-- The first of a group of carriers that a header left out. -/
def undeclared? (t : Carriers) (names : List String) : Option String :=
  if t.fromHeader then names.find? fun name => !t.declared.contains name else none

/-- Why a group of carriers cannot be brought in. -/
def inRefusal? (t : Carriers) (names : List String) : Option Error :=
  match names.find? t.isActive with
  | some name => some (.alreadyActive name)
  | none => (t.undeclared? names).map .undeclaredCarrier

theorem declareAll_eq_error_iff {names : List String} {e : Error} :
    t.declareAll names = .error e ↔ (t.undeclared? names).map .undeclaredCarrier = some e := by
  induction names generalizing t with
  | nil => simp [declareAll, undeclared?]
  | cons name names ih =>
    unfold declareAll declare undeclared?
    by_cases hname : t.declared.contains name = true
    · simp only [hname, if_true, ih, List.find?_cons, Bool.not_true]
      rfl
    · rw [if_neg hname]
      cases hheader : t.fromHeader with
      | true => simp [hname, -List.contains_eq_mem]
      | false => simp [ih, undeclared?]

theorem bringIn_eq_error_iff {kind : InKind} {names : List String} {e : Error} :
    t.bringIn kind names = .error e ↔ t.inRefusal? names = some e := by
  unfold bringIn inRefusal?
  cases names.find? t.isActive with
  | some name => simp
  | none =>
    dsimp only
    rw [← declareAll_eq_error_iff]
    cases t.declareAll names <;> simp

theorem Alike.inRefusal? (h : t.Alike lanes t') (names : List String) :
    t.inRefusal? names = t'.inRefusal? names := by
  have hundeclared : t.undeclared? names = t'.undeclared? names := by
    unfold undeclared?
    rw [← h.fromHeader]
    split
    · next hheader => rw [h.declared (.inr hheader)]
    · rfl
  rw [Carriers.inRefusal?, Carriers.inRefusal?, h.isActive, hundeclared]

/-- A group is refused for the same reason, or brought in. -/
theorem Alike.bringIn (h : t.Alike lanes t') (kind : InKind) (names : List String) :
    (∃ e, t.bringIn kind names = .error e ∧ t'.bringIn kind names = .error e) ∨
      ∃ u u', t.bringIn kind names = .ok u ∧ t'.bringIn kind names = .ok u' ∧
        u.Alike lanes u' := by
  have hrefused : ∀ {t : Carriers} {e : Error},
      t.bringIn kind names = .error e ↔ t.inRefusal? names = some e := bringIn_eq_error_iff
  cases hin : t.bringIn kind names with
  | error e =>
    rw [hrefused, h.inRefusal?, ← hrefused] at hin
    exact .inl ⟨e, rfl, hin⟩
  | ok u =>
    cases hin' : t'.bringIn kind names with
    | error e =>
      rw [hrefused, ← h.inRefusal?, ← hrefused, hin] at hin'
      simp at hin'
    | ok u' =>
      obtain ⟨hdeclared, hheader, hget⟩ := bringIn_spec hin
      obtain ⟨hdeclared', hheader', hget'⟩ := bringIn_spec hin'
      refine .inr ⟨u, u', rfl, rfl, ?_, by rw [hheader, hheader', h.fromHeader], ?_⟩
      · funext k
        rw [Carriers.standing, Carriers.standing, hget, hget']
        split
        · rfl
        · exact congrFun h.standing k
      · intro hlanes
        rw [hheader] at hlanes
        rw [hdeclared, hdeclared', h.declared hlanes]

/-! ### Taking out, parking and moving -/

theorem Alike.removeAll (h : t.Alike lanes t') (names : List String) :
    (t.removeAll names).Alike lanes (t'.removeAll names) := by
  have hget : ∀ (t : Carriers) (k : String),
      (t.removeAll names).standing k = if k ∈ names then none else t.standing k := by
    intro t k
    rw [Carriers.standing, get?_removeAll]
    split <;> rfl
  exact h.change (f := fun k s => if k ∈ names then none else s) (hget t) (hget t')
    (removeAll_declared t names) (removeAll_declared t' names)

/-- A group is parked wherever it is: what counts is that it is. -/
theorem Alike.park (h : t.Alike lanes t') (names : List String) (last last' : LastStitch) :
    (t.park names last).Alike lanes (t'.park names last') := by
  have hget : ∀ (t : Carriers) (last : LastStitch) (k : String), (t.park names last).standing k =
      (t.standing k).map fun s => if k ∈ names then (s.1, true) else s := by
    intro t last k
    have hname : ∀ c : Carrier,
        (if c.name ∈ names then { c with last := some last } else c).name = c.name := by
      intro c
      split <;> rfl
    rw [park_eq_mapMembers, Carriers.standing, get?_mapMembers hname, Carriers.standing]
    cases hk : t.get? k with
    | none => rfl
    | some c =>
      rw [Option.map_some, Option.map_some, Option.map_some, Option.map_some, name_of_get? hk]
      split <;> rfl
  have hkept : ∀ (t : Carriers) (last : LastStitch),
      (t.park names last).declared = t.declared ∧
        (t.park names last).fromHeader = t.fromHeader := by
    intro t last
    rw [park_eq_mapMembers]
    exact ⟨rfl, rfl⟩
  exact h.change (f := fun k s => s.map fun s => if k ∈ names then (s.1, true) else s) (hget t last)
    (hget t' last') (hkept t last) (hkept t' last')

theorem Moved.standing (h : t.Moved u) : u.standing = t.standing := by
  obtain ⟨f, hf, rfl⟩ := h
  funext k
  rw [Carriers.standing, get?_mapMembers fun c => (hf c).1, Option.map_map, Carriers.standing]
  congr 1
  funext c
  simp [Carrier.standing, hf]

/-- Carriers that are moved by kicks keep their standings. -/
theorem Alike.moved (h : t.Alike lanes t') (hu : t.Moved u) (hu' : t'.Moved u') :
    u.Alike lanes u' :=
  h.change (f := fun _ s => s) (congrFun hu.standing) (congrFun hu'.standing) hu.declared
    hu'.declared

end Carriers

namespace Machine

open Carriers

/-! ### Using a group -/

section Use

variable {lanes : Prop} {t t' : Carriers}

theorem standing_takeOne (s : Carriers × Option PendingIn) (name k : String) :
    (takeOne s name).1.standing k =
      (s.1.standing k).map fun st => if k = name then (none, st.2) else st := by
  rw [standing, takeOne_get?, standing, Option.map_map, Option.map_map]
  congr 1
  funext c
  simp only [Function.comp_apply]
  split <;> rfl

theorem alike_takeOne {s s' : Carriers × Option PendingIn} (h : s.1.Alike lanes s'.1)
    (hs : s.2 = s'.2) (name : String) :
    (takeOne s name).1.Alike lanes (takeOne s' name).1 ∧
      (takeOne s name).2 = (takeOne s' name).2 := by
  refine ⟨h.change (f := fun k s => s.map fun st => if k = name then (none, st.2) else st)
    (standing_takeOne s name) (standing_takeOne s' name) (takeOne_kept s name).2
    (takeOne_kept s' name).2, ?_⟩
  have hpending : ∀ s : Carriers × Option PendingIn, (takeOne s name).2 =
      ((s.1.standing name).bind (·.1)).or s.2 := by
    intro s
    unfold takeOne standing
    cases hget : s.1.get? name with
    | none => rfl
    | some c =>
      cases hc : c.pending with
      | none => simp [Carrier.standing, hc]
      | some p => simp [Carrier.standing, hc]
  rw [hpending, hpending, h.standing, hs]

theorem alike_takePending (h : t.Alike lanes t') (names : List String) :
    (takePending t names).1.Alike lanes (takePending t' names).1 ∧
      (takePending t names).2 = (takePending t' names).2 := by
  rw [takePending_eq, takePending_eq]
  refine List.foldl_rel (r := fun s s' : Carriers × Option PendingIn =>
    s.1.Alike lanes s'.1 ∧ s.2 = s'.2) ⟨h, rfl⟩ ?_
  rintro name - s s' ⟨h, hs⟩
  exact alike_takeOne h hs name

/-- A group is refused for the same reason, or used, whatever its pass. -/
theorem alike_use (h : t.Alike lanes t') (names : List String) (p p' : Pass) :
    (use t names p).1.Alike lanes (use t' names p').1 ∧
      ((∃ e, (use t names p).2 = .error e ∧ (use t' names p').2 = .error e) ∨
        ∃ q q', (use t names p).2 = .ok q ∧ (use t' names p').2 = .ok q') := by
  obtain ⟨htaken, hpending⟩ := alike_takePending h names
  obtain ⟨hused, hpass⟩ := use_rel (S := fun _ _ => True) p p' h h.isActive htaken hpending
    trivial fun _ => trivial
  refine ⟨hused, hpass.imp_right ?_⟩
  rintro ⟨q, q', hq, hq', -⟩
  exact ⟨q, q', hq, hq'⟩

theorem outRefusal?_congr (h : t.Alike lanes t') (names : List String) :
    outRefusal? t names = outRefusal? t' names := by
  have hstanding : ∀ t : Carriers, outRefusal? t names = names.findSome? fun name =>
      match t.standing name with
      | none => some (.inactiveCarrier name)
      | some s => if s.2 then none else some (.neverStitched name) := by
    intro t
    unfold outRefusal?
    congr 1
    funext name
    unfold Carriers.standing
    cases t.get? name with
    | none => rfl
    | some c => cases hlast : c.last <;> simp [Carrier.standing, hlast]
  rw [hstanding, hstanding, h.standing]

end Use

/-! ## Machines -/

variable {α : Type} {lanes : Prop} {m m' : Machine α}

/-- Two machines agree in all that reports depend on. -/
structure Alike (lanes : Prop) (m m' : Machine α) : Prop where
  carriers : m.carriers.Alike lanes m'.carriers
  hook : m.hook = m'.hook
  racking : m.racking = m'.racking
  needles : m.fabric.SameNeedles m'.fabric

theorem alike_initial (config config' : Config α) :
    (initial config).Alike lanes (initial config') :=
  ⟨.refl _, rfl, rfl, fun _ => ⟨fun _ => rfl, fun _ => rfl⟩⟩

/-- What holds of each single machine of a session: what is active is declared, and the fabric is
well-formed. -/
structure Sound (m : Machine α) : Prop where
  declared : m.carriers.AllDeclared
  fabric : m.fabric.WellFormed

theorem sound_initial (config : Config α) : (initial config).Sound :=
  ⟨nofun, Fabric.wellFormed_empty _⟩

theorem LeftByFailure.allDeclared {t u : Carriers} (h : LeftByFailure t u) (ht : t.AllDeclared) :
    u.AllDeclared := by
  rcases h with rfl | ⟨kind, names, hin⟩ | ⟨names, rfl⟩
  · exact ht
  · obtain ⟨hdeclared, -, hget⟩ := bringIn_spec hin
    intro name hname
    rw [hdeclared, mem_appendNew]
    by_cases hmem : name ∈ names
    · exact .inr hmem
    · rw [isActive, hget, if_neg hmem] at hname
      exact .inl (ht name hname)
  · intro name hname
    rw [(takePending_declared t names).1]
    refine ht name ?_
    simpa [isActive, get?_takePending] using hname

/-- Carriers of which no more are active and as many declared. -/
theorem allDeclared_of_le {t u : Carriers} (ht : t.AllDeclared)
    (hdeclared : u.declared = t.declared)
    (hactive : ∀ name, u.isActive name = true → t.isActive name = true) : u.AllDeclared := by
  intro name hname
  rw [hdeclared]
  exact ht name (hactive name hname)

theorem Moved.allDeclared {t u : Carriers} (h : t.Moved u) (ht : t.AllDeclared) :
    u.AllDeclared := by
  refine allDeclared_of_le ht h.declared.1 ?_
  obtain ⟨f, hf, rfl⟩ := h
  intro name hname
  rwa [isActive_mapMembers fun c => (hf c).1] at hname

theorem Effect.allDeclared {i : Instruction} (h : m.Effect i m') (hm : m.carriers.AllDeclared) :
    m'.carriers.AllDeclared := by
  cases h with
  | idle => exact hm
  | bringIn _ hin _ => exact LeftByFailure.allDeclared (.inr (.inl ⟨_, _, hin⟩)) hm
  | releaseHook => exact hm
  | takeOut =>
    refine allDeclared_of_le hm (removeAll_declared _ _).1 ?_
    intro name hname
    rw [isActive, get?_removeAll] at hname
    split at hname
    · simp at hname
    · exact hname
  | rack => exact hm
  | bare _ hsubmit => exact Moved.allDeclared (Schedule.moved_submit hsubmit) hm
  | yarn _ _ huse hsubmit =>
    obtain ⟨-, rfl, -⟩ := use_eq_ok_iff.1 huse
    refine Moved.allDeclared (Schedule.moved_submit hsubmit) ?_
    refine allDeclared_of_le hm ?_ ?_
    · rw [park_eq_mapMembers, declared_mapMembers, (takePending_declared _ _).1]
    · intro name hname
      simpa [isActive, get?_used] using hname

/-! ### Two steps that report the same -/

/-- Two steps report the same and leave machines that are alike but for their fabrics. -/
structure SameReport (lanes : Prop) (s s' : Step α) : Prop where
  outcome : s.outcome = s'.outcome
  carriers : s.machine.carriers.Alike lanes s'.machine.carriers
  hook : s.machine.hook = s'.machine.hook
  racking : s.machine.racking = s'.machine.racking

theorem Alike.fail (h : m.Alike lanes m') (e : Error) : SameReport lanes (m.fail e) (m'.fail e) :=
  ⟨rfl, h.carriers, h.hook, h.racking⟩

theorem Alike.skip (h : m.Alike lanes m') (w : Warning) :
    SameReport lanes (m.skip w) (m'.skip w) :=
  ⟨rfl, h.carriers, h.hook, h.racking⟩

theorem Alike.done (h : m.Alike lanes m') (events events' : List Event) :
    SameReport lanes (m.done events) (m'.done events') :=
  ⟨rfl, h.carriers, h.hook, h.racking⟩

theorem Alike.bringIn (h : m.Alike lanes m') (kind : InKind) (names : List String) :
    SameReport lanes (m.bringIn kind names) (m'.bringIn kind names) := by
  unfold Machine.bringIn
  split
  · exact h.fail _
  · rcases h.carriers.bringIn kind names with ⟨e, hin, hin'⟩ | ⟨u, u', hin, hin', hu⟩
    · rw [hin, hin']
      exact h.fail e
    · rw [hin, hin']
      cases kind with
      | plain => exact ⟨rfl, hu, h.hook, h.racking⟩
      | hook =>
        dsimp only
        rw [h.hook]
        cases m'.hook.hold names with
        | error e => exact ⟨rfl, hu, rfl, h.racking⟩
        | ok hook => exact ⟨rfl, hu, rfl, h.racking⟩

theorem Alike.releaseHook (h : m.Alike lanes m') (names : List String) :
    SameReport lanes (m.releaseHook names) (m'.releaseHook names) := by
  unfold Machine.releaseHook
  rw [h.hook]
  cases m'.hook.release names with
  | error e => exact h.fail e
  | ok hook => exact ⟨rfl, h.carriers, rfl, h.racking⟩

theorem Alike.takeOut (h : m.Alike lanes m') (withHook : Bool) (names : List String) :
    SameReport lanes (m.takeOut withHook names) (m'.takeOut withHook names) := by
  unfold Machine.takeOut
  split
  · exact h.fail _
  · rw [outRefusal?_congr h.carriers, h.hook]
    cases outRefusal? m'.carriers names with
    | some e => exact h.fail e
    | none =>
      dsimp only
      split
      · exact h.fail _
      · exact ⟨rfl, h.carriers.removeAll names, rfl, h.racking⟩

/-- A pass that can be carried out is scheduled without a report of its own. -/
theorem sameReport_submit (hcarriers : m.carriers.Alike lanes m'.carriers)
    (hhook : m.hook = m'.hook) (hracking : m.racking = m'.racking) {p p' : Pass}
    (hp : p.validate = .ok ()) (hp' : p'.validate = .ok ()) {w w' : Option Warning} (hw : w = w')
    (events events' : List Event) :
    SameReport lanes (m.submit p w events) (m'.submit p' w' events') := by
  obtain ⟨r, hsubmit, hstep⟩ := submit_eq_of_validate hp m w events
  obtain ⟨r', hsubmit', hstep'⟩ := submit_eq_of_validate hp' m' w' events'
  rw [hstep, hstep', hw]
  exact ⟨rfl, hcarriers.moved (Schedule.moved_submit hsubmit) (Schedule.moved_submit hsubmit'),
    hhook, hracking⟩

/-- A carrier that is used has a lane. -/
theorem exists_lane_of_use {t u : Carriers} (ht : t.AllDeclared) {names : List String}
    {p q : Pass} (huse : use t names p = (u, .ok q)) {name : String} (hname : name ∈ names) :
    ∃ lane, u.lane? name = some lane := by
  obtain ⟨hactive, rfl, -⟩ := use_eq_ok_iff.1 huse
  rw [lane?_takePending, lane?]
  obtain ⟨i, hi⟩ := Option.isSome_iff_exists.1
    (List.isSome_idxOf?.2 (ht name (hactive name hname)))
  exact ⟨_, by rw [hi]; rfl⟩

theorem Alike.withYarn (h : m.Alike lanes m') (hm : m.carriers.AllDeclared)
    (hm' : m'.carriers.AllDeclared) {kind : PassKind} (hkind : kind.isTransfer = false)
    {work work' : Fabric α → Lane → Fabric α × Option Warning × List Event}
    (hwork : ∀ lane lane', (work m.fabric lane).2.1 = (work' m'.fabric lane').2.1)
    (leader : String) (rest : List String) (direction : Direction) (n : Needle) (slot : Int)
    (op : SlotOp) :
    SameReport lanes
      (m.withYarn leader (leader :: rest) direction n
        (m.singlePass kind slot op direction (leader :: rest)) work)
      (m'.withYarn leader (leader :: rest) direction n
        (m'.singlePass kind slot op direction (leader :: rest)) work') := by
  obtain ⟨hused, hresult⟩ := alike_use h.carriers (leader :: rest)
    (m.singlePass kind slot op direction (leader :: rest))
    (m'.singlePass kind slot op direction (leader :: rest))
  have hvalid : ∀ {m : Machine α} {t p}, use m.carriers (leader :: rest)
      (m.singlePass kind slot op direction (leader :: rest)) = (t, .ok p) → p.validate = .ok () :=
    fun huse => validate_of_use hkind (List.cons_ne_nil leader rest) huse
  have hlane : ∀ {m : Machine α}, m.carriers.AllDeclared → ∀ {t q}, use m.carriers (leader :: rest)
      (m.singlePass kind slot op direction (leader :: rest)) = (t, .ok q) →
      ∃ lane, t.lane? leader = some lane :=
    fun hm _ _ huse => exists_lane_of_use hm huse List.mem_cons_self
  unfold Machine.withYarn
  generalize huse : use m.carriers _ _ = used at hused hresult ⊢
  generalize huse' : use m'.carriers _ _ = used' at hused hresult ⊢
  obtain ⟨t, result⟩ := used
  obtain ⟨t', result'⟩ := used'
  dsimp only at hused hresult
  rcases hresult with ⟨e, rfl, rfl⟩ | ⟨q, q', rfl, rfl⟩
  · exact ⟨rfl, hused, h.hook, h.racking⟩
  · obtain ⟨lane, ht⟩ := hlane hm huse
    obtain ⟨lane', ht'⟩ := hlane hm' huse'
    dsimp only
    rw [ht, ht']
    refine sameReport_submit ?_ ?_ ?_ (hvalid huse) (hvalid huse') (hwork lane lane') _ _
    · exact hused.park _ _ _
    · exact h.hook
    · exact h.racking

/-! ### Stitches and splits -/

theorem Alike.stitchBare (h : m.Alike lanes m') (op : StitchOp) (n : Needle) (slot : Int) :
    SameReport lanes (m.stitchBare op n slot) (m'.stitchBare op n slot) := by
  have hvalid : ∀ (m : Machine α) (kind : PassKind) (op : SlotOp) (direction : Direction),
      (m.singlePass kind slot op direction []).validate = .ok () :=
    fun _ _ _ _ => Pass.validate_bare rfl rfl rfl
  unfold Machine.stitchBare
  cases op with
  | miss => exact h.fail _
  | tuck => exact sameReport_submit h.carriers h.hook h.racking (hvalid ..) (hvalid ..) rfl _ _
  | knit =>
    dsimp only
    cases hdrop : m.fabric.drop n with
    | error w =>
      -- Both needles are free, or neither.
      have hfree := (Fabric.drop_warns_iff _ _).1 hdrop
      rw [h.needles, ← Fabric.drop_warns_iff] at hfree
      rw [hfree]
      exact h.skip w
    | ok dropped =>
      cases hdrop' : m'.fabric.drop n with
      | error w =>
        have hfree := (Fabric.drop_warns_iff _ _).1 hdrop'
        rw [← h.needles, ← Fabric.drop_warns_iff, hdrop] at hfree
        simp at hfree
      | ok dropped' =>
        refine sameReport_submit ?_ ?_ ?_ (hvalid ..) (hvalid ..) rfl _ _
        · exact h.carriers
        · exact h.hook
        · exact h.racking

variable [Scalar α]

theorem Sound.execute (h : m.Sound) (i : Instruction) : (m.execute i).machine.Sound where
  declared := by
    rcases ends_execute m i with ⟨e, t, -, hleft, hm⟩ | ⟨w, -, heffect⟩
    · rw [hm]
      exact hleft.allDeclared h.declared
    · exact heffect.allDeclared h.declared
  fabric := by
    rw [fabric_execute]
    exact h.fabric.foldl_apply _

theorem Alike.stitch (h : m.Alike lanes m') (hm : m.Sound) (hm' : m'.Sound) (op : StitchOp)
    (direction : Direction) (n : Needle) (names : List String) :
    SameReport lanes (m.stitch op direction n names) (m'.stitch op direction n names) := by
  rw [stitch_eq, stitch_eq, ← h.racking]
  cases stitchSlot n m.racking with
  | error e => exact h.fail e
  | ok slot =>
    cases names with
    | nil => exact h.stitchBare op n slot
    | cons leader rest => exact h.withYarn hm.declared hm'.declared rfl (fun _ _ => rfl) ..

/-- A transfer warns of an empty needle in both fabrics or in neither. -/
theorem Alike.transfer_warns_iff (h : m.Alike lanes m') (hm : m.Sound) (hm' : m'.Sound)
    (source target : Needle) (laneCount laneCount' : Nat) (w : Warning) :
    m.fabric.transfer source target laneCount = .error w ↔
      m'.fabric.transfer source target laneCount' = .error w := by
  rw [hm.fabric.transfer_warns_iff, hm'.fabric.transfer_warns_iff, h.needles]

theorem splitFabric_warning (source target : Needle) (direction : Direction) (f : Fabric α)
    (lane : Lane) :
    (splitFabric source target direction f lane).2.1 =
      match f.transfer source target lane.count with
      | .error w => some w
      | .ok _ => none := by
  unfold splitFabric
  cases f.transfer source target lane.count <;> rfl

theorem Alike.splitBare (h : m.Alike lanes m') (hm : m.Sound) (hm' : m'.Sound)
    (source target : Needle) (kind : PassKind) (slot : Int) (op : SlotOp) (direction : Direction) :
    SameReport lanes (m.splitBare source target (m.singlePass kind slot op direction []))
      (m'.splitBare source target (m'.singlePass kind slot op direction [])) := by
  have htransfer := h.transfer_warns_iff hm hm' source target
  unfold Machine.splitBare
  cases hmoved : m.fabric.transfer source target m.carriers.declared.length with
  | error w =>
    rw [(htransfer _ _ w).1 hmoved]
    exact h.skip w
  | ok moved =>
    cases hmoved' : m'.fabric.transfer source target m'.carriers.declared.length with
    | error w =>
      rw [(htransfer _ _ w).2 hmoved'] at hmoved
      simp at hmoved
    | ok moved' =>
      refine sameReport_submit ?_ ?_ ?_ (Pass.validate_bare rfl rfl rfl)
        (Pass.validate_bare rfl rfl rfl) rfl _ _
      · exact h.carriers
      · exact h.hook
      · exact h.racking

theorem Alike.split (h : m.Alike lanes m') (hm : m.Sound) (hm' : m'.Sound) (direction : Direction)
    (source target : Needle) (names : List String) :
    SameReport lanes (m.split direction source target names)
      (m'.split direction source target names) := by
  rw [split_eq, split_eq, ← h.racking]
  cases hplace : splitPlace source target m.racking (!names.isEmpty) with
  | error e => exact h.fail e
  | ok place =>
    obtain ⟨kind, slot⟩ := place
    cases names with
    | nil => exact h.splitBare hm hm' ..
    | cons leader rest =>
      have htransfer := h.transfer_warns_iff hm hm' source target
      refine h.withYarn hm.declared hm'.declared (isTransfer_of_splitPlace hplace) ?_ ..
      intro lane lane'
      rw [splitFabric_warning, splitFabric_warning]
      cases hmoved : m.fabric.transfer source target lane.count with
      | error w => rw [(htransfer _ _ w).1 hmoved]
      | ok moved =>
        cases hmoved' : m'.fabric.transfer source target lane'.count with
        | error w =>
          rw [(htransfer _ _ w).2 hmoved'] at hmoved
          simp at hmoved
        | ok moved' => rfl

/-! ### Instructions -/

/-- Alike machines report the same for an instruction. -/
theorem Alike.report (h : m.Alike lanes m') (hm : m.Sound) (hm' : m'.Sound) (i : Instruction) :
    SameReport lanes (m.execute i) (m'.execute i) := by
  cases i with
  | bringIn kind names => exact h.bringIn kind names
  | releaseHook names => exact h.releaseHook names
  | takeOut withHook names => exact h.takeOut withHook names
  | stitch op direction n names => exact h.stitch hm hm' op direction n names
  | split direction source target names => exact h.split hm hm' direction source target names
  | rack racking => exact ⟨rfl, h.carriers, h.hook, rfl⟩
  | pause => exact h.done [] []
  | extension op => exact h.skip _
  | unsupported op => exact h.skip _

/-- The calls of an instruction with carriers that have lanes differ in nothing but these. -/
theorem unlaned_calls {t t' : Carriers} {i : Instruction}
    (h : ∀ name, i.leader? = some name → ∃ lane, t.lane? name = some lane)
    (h' : ∀ name, i.leader? = some name → ∃ lane, t'.lane? name = some lane) :
    ((i.calls t).map (·.operation)).map Operation.unlaned =
      ((i.calls t').map (·.operation)).map Operation.unlaned := by
  have hcall : ∀ (knit : Bool) (direction : Direction) (n : Needle) (leader : String),
      i.leader? = some leader →
      ((Instruction.stitchCall t knit direction n leader).map (·.operation)).map
          Operation.unlaned =
        ((Instruction.stitchCall t' knit direction n leader).map (·.operation)).map
          Operation.unlaned := by
    intro knit direction n leader hleader
    obtain ⟨lane, hlane⟩ := h leader hleader
    obtain ⟨lane', hlane'⟩ := h' leader hleader
    simp [Instruction.stitchCall, hlane, hlane', Operation.unlaned]
  unfold Instruction.calls
  split
  · rfl
  · exact hcall _ _ _ _ rfl
  · exact hcall _ _ _ _ rfl
  · rfl
  · simpa [Operation.unlaned] using hcall _ _ _ _ rfl
  · rfl

/-- Alike machines report the same for an instruction and are alike after it. -/
theorem Alike.execute (h : m.Alike lanes m') (hm : m.Sound) (hm' : m'.Sound) (i : Instruction) :
    (m.execute i).outcome = (m'.execute i).outcome ∧
      (m.execute i).machine.Alike lanes (m'.execute i).machine := by
  have hreport := h.report hm hm' i
  refine ⟨hreport.outcome, hreport.carriers, hreport.hook, hreport.racking, ?_⟩
  cases houtcome : (m.execute i).outcome with
  | error e =>
    rw [fabric_of_error houtcome, fabric_of_error (hreport.outcome ▸ houtcome)]
    exact h.needles
  | ok w =>
    have hok : (m.execute i).Succeeds := ⟨w, houtcome⟩
    have hok' : (m'.execute i).Succeeds := ⟨w, hreport.outcome ▸ houtcome⟩
    rw [execute_fabric hok, execute_fabric hok']
    exact h.needles.foldl_apply hm.fabric hm'.fabric (unlaned_calls
      (fun _ hname => exists_lane_of_succeeds hname hok)
      fun _ hname => exists_lane_of_succeeds hname hok')

end Machine

end Knitting
