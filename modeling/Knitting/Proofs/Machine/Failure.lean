import Knitting.Proofs.Machine.Report

set_option autoImplicit false

/-! # What a failed instruction leaves behind

Why an instruction fails and what it has changed by then (`Machine.Failure`). Nearly every check
comes before the first change. Two come after it: the hook turns out to be busy when its carriers
are in, and a group turns out to be the wrong one when none of it waits any more. What could fail
later, once the fabric is changed, never does: whoever is used has a lane, and the schedule takes
every pass. -/

namespace Knitting

/-! ## Refusals -/

/-- An error that is found before anything is changed, whatever the instruction. -/
def Error.IsRefusal : Error → Prop
  | .hookBusy _ _ => False
  | .firstUseMismatch _ _ => False
  | .invalidPass _ => False
  | .atLine _ _ => False
  | _ => True

namespace Machine

theorem isRefusal_of_bringIn {t : Carriers} {kind : InKind} {names : List String} {e : Error}
    (h : t.bringIn kind names = .error e) : e.IsRefusal := by
  have hrefusal := Carriers.bringIn_eq_error_iff.1 h
  unfold Carriers.inRefusal? at hrefusal
  split at hrefusal
  · obtain rfl := Option.some.inj hrefusal
    trivial
  · obtain ⟨name, -, rfl⟩ := Option.map_eq_some_iff.1 hrefusal
    trivial

theorem isRefusal_of_release {hook : Hook} {names : List String} {e : Error}
    (h : hook.release names = .error e) : e.IsRefusal := by
  unfold Hook.release at h
  split at h
  · obtain rfl := Except.error.inj h
    trivial
  · split at h
    · simp at h
    · obtain rfl := Except.error.inj h
      trivial

theorem isRefusal_of_outRefusal? {t : Carriers} {names : List String} {e : Error}
    (h : outRefusal? t names = some e) : e.IsRefusal := by
  obtain ⟨name, -, hname⟩ := List.exists_of_findSome?_eq_some h
  split at hname
  · obtain rfl := Option.some.inj hname
    trivial
  · split at hname
    · obtain rfl := Option.some.inj hname
      trivial
    · simp at hname

theorem isRefusal_of_slot {n : Needle} {racking : Float} {e : Error}
    (h : n.slot racking = .error e) : e.IsRefusal := by
  unfold Needle.slot at h
  split at h
  · simp at h
  · obtain rfl := Except.error.inj h
    trivial

theorem isRefusal_of_stitchSlot {n : Needle} {racking : Float} {e : Error}
    (h : stitchSlot n racking = .error e) : e.IsRefusal := by
  unfold stitchSlot at h
  split at h
  · obtain rfl := Except.error.inj h
    trivial
  · exact isRefusal_of_slot h

theorem isRefusal_of_splitKind {source target : Needle} {withYarn : Bool} {e : Error}
    (h : splitKind source target withYarn = .error e) : e.IsRefusal := by
  unfold splitKind at h
  split at h <;> cases h <;> trivial

/-- What fails in two parts fails in one of them. -/
theorem bind_eq_error {β γ : Type} {r : Except Error β} {f : β → Except Error γ} {e : Error}
    (h : r >>= f = .error e) : r = .error e ∨ ∃ b, r = .ok b ∧ f b = .error e := by
  cases r with
  | error e' => exact .inl (congrArg Except.error (Except.error.inj h))
  | ok b => exact .inr ⟨b, rfl, h⟩

theorem isRefusal_of_splitPlace {source target : Needle} {racking : Float} {withYarn : Bool}
    {e : Error} (h : splitPlace source target racking withYarn = .error e) : e.IsRefusal := by
  unfold splitPlace at h
  rcases bind_eq_error h with hkind | ⟨kind, -, h⟩
  · exact isRefusal_of_splitKind hkind
  split at h
  · obtain rfl := Except.error.inj h
    trivial
  rcases bind_eq_error h with hslot | ⟨slot, -, h⟩
  · exact isRefusal_of_slot hslot
  rcases bind_eq_error h with hfacing | ⟨facing, -, h⟩
  · exact isRefusal_of_slot hfacing
  split at h
  · obtain rfl := Except.error.inj h
    trivial
  · simp [pure, Except.pure] at h

end Machine

/-! ## Failures -/

/-- The carriers that an instruction works with. -/
def Instruction.users : Instruction → List String
  | .stitch _ _ _ names => names
  | .split _ _ _ names => names
  | _ => []

namespace Machine

variable {α : Type}

/-- Why an instruction fails on a machine, and the machine that it leaves. -/
inductive Failure (m : Machine α) (i : Instruction) : Error → Machine α → Prop where
  /-- It is refused before anything is changed. -/
  | refused {e : Error} (he : e.IsRefusal) : Failure m i e m
  /-- The hook cannot take yarn out while it holds some. -/
  | outBusy {names held : List String} (hi : i = .takeOut true names) :
      Failure m i (.hookBusy names held) m
  /-- The hook cannot hold another group, which is in by now. -/
  | inBusy {names held : List String} {carriers : Carriers} (hi : i = .bringIn .hook names)
      (hin : m.carriers.bringIn .hook names = .ok carriers) :
      Failure m i (.hookBusy names held) { m with carriers }
  /-- The group is not the one that was brought in, and none of it waits by now. -/
  | mismatch {group : List String} :
      Failure m i (.firstUseMismatch i.users group)
        { m with carriers := (takePending m.carriers i.users).1 }
  /-- The leader of a group that can be used has no lane. -/
  | laneless {leader : String} {rest : List String} {p q : Pass} {t : Carriers}
      (huse : use m.carriers (leader :: rest) p = (t, .ok q)) (hlane : t.lane? leader = none) :
      Failure m i (.inactiveCarrier leader) { m with carriers := t }

/-- If a step failed then for one of the known reasons. -/
def FailsAs (m : Machine α) (i : Instruction) (s : Step α) : Prop :=
  ∀ e, s.outcome = .error e → m.Failure i e s.machine

variable {m : Machine α} {i : Instruction} {e : Error}

theorem failsAs_ok {s : Step α} {w : Option Warning} (h : s.outcome = .ok w) : m.FailsAs i s := by
  intro e he
  simp [he] at h

theorem failsAs_fail (he : e.IsRefusal) : m.FailsAs i (m.fail e) := by
  intro e' he'
  obtain rfl := Except.error.inj he'
  exact .refused he

theorem failsAs_submit {p : Pass} (hvalid : p.validate = .ok ()) (m' : Machine α)
    (w : Option Warning) (events : List Event) : m.FailsAs i (m'.submit p w events) := by
  obtain ⟨r, -, hstep⟩ := submit_eq_of_validate hvalid m' w events
  rw [hstep]
  exact failsAs_ok rfl

theorem failsAs_bringIn (m : Machine α) (kind : InKind) (names : List String) :
    m.FailsAs (.bringIn kind names) (m.bringIn kind names) := by
  unfold bringIn
  split
  · exact failsAs_fail trivial
  · split
    · next e hin => exact failsAs_fail (isRefusal_of_bringIn hin)
    · next carriers hin =>
      cases kind with
      | plain => exact failsAs_ok rfl
      | hook =>
        unfold Hook.hold
        dsimp only
        split
        · next e hhold =>
          split at hhold
          · obtain rfl := Except.error.inj hhold
            intro e he
            obtain rfl := Except.error.inj he
            exact .inBusy rfl hin
          · simp at hhold
        · exact failsAs_ok rfl

theorem failsAs_releaseHook (m : Machine α) (names : List String) :
    m.FailsAs (.releaseHook names) (m.releaseHook names) := by
  unfold releaseHook
  split
  · next e hrelease => exact failsAs_fail (isRefusal_of_release hrelease)
  · exact failsAs_ok rfl

theorem failsAs_takeOut (m : Machine α) (withHook : Bool) (names : List String) :
    m.FailsAs (.takeOut withHook names) (m.takeOut withHook names) := by
  unfold takeOut
  split
  · exact failsAs_fail trivial
  · split
    · next e hout => exact failsAs_fail (isRefusal_of_outRefusal? hout)
    · split
      · intro e he
        obtain rfl := Except.error.inj he
        exact .outBusy rfl
      · exact failsAs_ok rfl

theorem failsAs_withYarn {kind : PassKind} (hkind : kind.isTransfer = false) {leader : String}
    {rest : List String} (hi : i.users = leader :: rest) (m : Machine α) (direction : Direction)
    (n : Needle) (slot : Int) (op : SlotOp)
    (work : Fabric α → Lane → Fabric α × Option Warning × List Event) :
    m.FailsAs i (m.withYarn leader (leader :: rest) direction n
      (m.singlePass kind slot op direction (leader :: rest)) work) := by
  unfold withYarn
  split
  · next t e huse =>
    intro e' he'
    obtain rfl := Except.error.inj he'
    rcases use_eq_error huse with ⟨name, rfl, rfl⟩ | ⟨group, rfl, rfl⟩
    · exact .refused trivial
    · rw [← hi]
      exact .mismatch
  · next t p huse =>
    split
    · next hlane =>
      intro e he
      obtain rfl := Except.error.inj he
      exact .laneless huse hlane
    · exact failsAs_submit (validate_of_use hkind (List.cons_ne_nil _ _) huse) _ _ _

theorem failsAs_stitchBare (m : Machine α) (op : StitchOp) (n : Needle) (slot : Int) :
    m.FailsAs i (m.stitchBare op n slot) := by
  unfold stitchBare
  cases op with
  | miss => exact failsAs_fail trivial
  | tuck => exact failsAs_submit (Pass.validate_bare rfl rfl rfl) _ _ _
  | knit =>
    dsimp only
    split
    · exact failsAs_ok rfl
    · exact failsAs_submit (Pass.validate_bare rfl rfl rfl) _ _ _

variable [Scalar α]

/-- Why an instruction fails. -/
theorem failsAs_execute (m : Machine α) (i : Instruction) : m.FailsAs i (m.execute i) := by
  cases i with
  | bringIn kind names => exact failsAs_bringIn m kind names
  | releaseHook names => exact failsAs_releaseHook m names
  | takeOut withHook names => exact failsAs_takeOut m withHook names
  | stitch op direction n names =>
    show m.FailsAs _ (m.stitch op direction n names)
    rw [stitch_eq]
    cases hslot : stitchSlot n m.racking with
    | error e => exact failsAs_fail (isRefusal_of_stitchSlot hslot)
    | ok slot =>
      cases names with
      | nil => exact failsAs_stitchBare m op n slot
      | cons leader rest =>
        exact failsAs_withYarn rfl rfl m _ _ _ _ _
  | split direction source target names =>
    show m.FailsAs _ (m.split direction source target names)
    rw [split_eq]
    cases hplace : splitPlace source target m.racking (!names.isEmpty) with
    | error e => exact failsAs_fail (isRefusal_of_splitPlace hplace)
    | ok place =>
      cases names with
      | nil =>
        dsimp only [splitBare]
        split
        · exact failsAs_ok rfl
        · exact failsAs_submit (Pass.validate_bare rfl rfl rfl) _ _ _
      | cons leader rest =>
        exact failsAs_withYarn (isTransfer_of_splitPlace hplace) rfl m _ _ _ _ _
  | rack racking => exact failsAs_ok rfl
  | pause => exact failsAs_ok rfl
  | extension op => exact failsAs_ok rfl
  | unsupported op => exact failsAs_ok rfl

/-! ## What is left of the carriers -/

end Machine

namespace Carriers

/-- The carriers of which those that are named wait no longer. -/
def stopWaiting (t : Carriers) (names : List String) : Carriers :=
  t.mapMembers fun c => if c.name ∈ names then { c with pending := none } else c

/-- The carriers after an instruction that failed: with its group in if the hook is busy, with none
of its group waiting if that is the wrong one, and otherwise as they were. -/
def afterFailure (t : Carriers) (i : Instruction) : Error → Except Error Carriers
  | .hookBusy _ _ =>
    match i with
    | .bringIn .hook names => t.bringIn .hook names
    | _ => .ok t
  | .firstUseMismatch _ _ => .ok (t.stopWaiting i.users)
  | _ => .ok t

theorem afterFailure_of_isRefusal {e : Error} (he : e.IsRefusal) (t : Carriers) (i : Instruction) :
    t.afterFailure i e = .ok t := by
  unfold afterFailure
  split <;> trivial

end Carriers

namespace Machine

/-- If each name stands once, letting a carrier wait no longer is an update whether it waited or
not. -/
theorem takeOne_fst {s : Carriers × Option PendingIn} (hnames : (s.1.members.map (·.name)).Nodup)
    (name : String) :
    (takeOne s name).1 = s.1.update name fun c => { c with pending := none } := by
  unfold takeOne
  split
  · next hnone =>
    have hidle : ∀ c ∈ s.1.members,
        (if c.name = name then { c with pending := none } else c) = c := by
      intro c hc
      split
      · next hname =>
        obtain ⟨d, hd⟩ : ∃ d, s.1.get? name = some d :=
          Option.isSome_iff_exists.1 (List.find?_isSome.2 ⟨c, hc, by simpa using hname⟩)
        have hmem : d ∈ s.1.members := List.mem_of_find?_eq_some hd
        obtain rfl := List.inj_on_of_nodup_map hnames hmem hc
          ((Carriers.name_of_get? hd).trans hname.symm)
        have hpending : d.pending = none := by simpa [hd] using hnone
        rw [← hpending]
      · rfl
    rw [Carriers.update, List.map_congr_left hidle, List.map_id']
  · rfl

/-- Of the carriers that are told apart by their names, those of a group wait no longer. -/
theorem takePending_fst {t : Carriers} (hnames : (t.members.map (·.name)).Nodup)
    (names : List String) : (takePending t names).1 = t.stopWaiting names := by
  have hfold : ∀ (names : List String) (s : Carriers × Option PendingIn),
      (s.1.members.map (·.name)).Nodup → (names.foldl takeOne s).1 =
        names.foldl (fun t name => t.update name fun c => { c with pending := none }) s.1 := by
    intro names
    induction names with
    | nil => exact fun _ _ => rfl
    | cons name names ih =>
      intro s hs
      rw [List.foldl_cons, List.foldl_cons, ← takeOne_fst hs, ih]
      rwa [(takeOne_kept s name).1]
  rw [takePending_eq, hfold names (t, none) hnames, Carriers.stopWaiting]
  exact Carriers.foldl_update_eq_mapMembers (f := fun c => { c with pending := none })
    (fun _ => rfl) (fun _ => rfl) names t

section

variable {α : Type} {m m' : Machine α} {i : Instruction} {e : Error}

/-- A failure changes nothing but the carriers, and them as told. -/
theorem Failure.contained (h : m.Failure i e m') (hdeclared : m.carriers.AllDeclared)
    (hnames : (m.carriers.members.map (·.name)).Nodup) :
    m' = { m with carriers := m'.carriers } ∧ m.carriers.afterFailure i e = .ok m'.carriers := by
  cases h with
  | refused he => exact ⟨rfl, Carriers.afterFailure_of_isRefusal he ..⟩
  | outBusy hi =>
    subst hi
    exact ⟨rfl, rfl⟩
  | inBusy hi hin =>
    subst hi
    exact ⟨rfl, hin⟩
  | mismatch => exact ⟨rfl, congrArg Except.ok (takePending_fst hnames _).symm⟩
  | laneless huse hlane =>
    obtain ⟨lane, hsome⟩ := exists_lane_of_use hdeclared huse List.mem_cons_self
    simp [hsome] at hlane

end

section Reachable

variable {α : Type} [Scalar α] {config : Config α} {allowed : Instruction → Step α → Prop}
  {m : Machine α}

/-- In a reachable machine whatever is active is declared. -/
theorem Reachable.allDeclared (h : Reachable config allowed m) : m.carriers.AllDeclared := by
  induction h with
  | start hdeclared =>
    obtain ⟨-, rfl⟩ := Carriers.declareAll_eq_ok_iff.1 hdeclared
    exact nofun
  | @header m h names ih =>
    intro name hname
    have hactive : m.carriers.isActive name = true := by
      simpa only [Carriers.isActive, Carriers.get?, members_declareHeader] using hname
    unfold Carriers.declareHeader
    split
    · exact ih name hactive
    · exact Carriers.mem_appendNew.2 (.inr (ih name hactive))
  | @execute m h i hallowed ih =>
    rcases ends_execute m i with ⟨e, t, -, hleft, hm⟩ | ⟨w, -, heffect⟩
    · rw [hm]
      exact hleft.allDeclared ih
    · exact heffect.allDeclared ih

/-- An instruction that fails leaves the fabric, the passes, the hook, the racking and the count of
kicks as they were. It leaves the carriers too, unless the hook is busy when a group comes in with
it, or a group stitches first that is not the one that was brought in. -/
theorem failure_contained (hm : Reachable config allowed m) {i : Instruction} {e : Error}
    (herror : (m.execute i).outcome = .error e) :
    (m.execute i).machine = { m with carriers := (m.execute i).machine.carriers } ∧
      m.carriers.afterFailure i e = .ok (m.execute i).machine.carriers :=
  (failsAs_execute m i e herror).contained hm.allDeclared hm.nodup_names

/-- While the hook holds a group that waits, another group comes in with the hook and is in, and the
group in the wrong order stitches and waits no longer. -/
theorem failures_while_hook_busy :
    let m := ((initial (Config.standard : Config Float32)).execute
      (.bringIn .hook ["A", "B"])).machine
    let second : Instruction := .bringIn .hook ["C"]
    let backward : Instruction := .stitch .knit .right (.front 0) ["B", "A"]
    ((m.execute second).outcome = .error (.hookBusy ["C"] ["A", "B"]) ∧
        m.carriers.bringIn .hook ["C"] = .ok (m.execute second).machine.carriers) ∧
      (m.execute backward).outcome = .error (.firstUseMismatch ["B", "A"] ["A", "B"]) ∧
        (m.execute backward).machine =
          { m with carriers := m.carriers.stopWaiting ["B", "A"] } := by
  intro m second backward
  have hdeclared : Carriers.empty.declareAll [] = .ok .empty := rfl
  have hm : Reachable (Config.standard : Config Float32) (fun _ _ => True) m :=
    .execute (.start hdeclared) trivial
  have hbusy : (m.execute second).outcome = .error (.hookBusy ["C"] ["A", "B"]) := rfl
  have hmismatch : (m.execute backward).outcome =
      .error (.firstUseMismatch ["B", "A"] ["A", "B"]) := by decide +kernel
  obtain ⟨hmachine, hcarriers⟩ := failure_contained hm hmismatch
  refine ⟨⟨hbusy, (failure_contained hm hbusy).2⟩, hmismatch, ?_⟩
  rw [hmachine, ← Except.ok.inj hcarriers]
  rfl

end Reachable

end Machine

end Knitting
