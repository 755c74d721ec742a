import Knitting.Machine
import Knitting.Proofs.Carrier.Table

set_option autoImplicit false

/-! # What each instruction does to the machine

An instruction that succeeds has one of few effects (`Machine.Effect`), and one that fails changes
no more than the carriers (`Machine.ends_execute`). A pass is never refused by the schedule: what a
stitch or a split asks for can be carried out (`Pass.validate_yarn`, `Pass.validate_bare`). -/

namespace Knitting

/-! ## Passes that can be carried out -/

namespace Pass

theorem validate_eq_ok_iff {p : Pass} : p.validate = .ok () ↔ p.flaw? = none := by
  unfold validate
  cases p.flaw? <;> simp

/-- A pass without yarn and without any action of hook or gripper can be carried out. -/
theorem validate_bare {p : Pass} (hcarriers : p.carriers = []) (hhook : p.hook = none)
    (hgripper : p.gripper = none) : p.validate = .ok () := by
  rw [validate_eq_ok_iff]
  simp [flaw?, hcarriers, hhook, hgripper]

/-- A pass with yarn can be carried out if the hook does nothing but bring in what the gripper
hands it. -/
theorem validate_yarn {p : Pass} (hkind : p.kind.isTransfer = false) (hcarriers : p.carriers ≠ [])
    (hhook : p.hook = none ∨ p.hook = some .bringIn ∧ p.gripper = some .bringIn) :
    p.validate = .ok () := by
  rw [validate_eq_ok_iff]
  rcases hhook with hhook | ⟨hhook, hgripper⟩
  · simp [flaw?, hkind, hcarriers, hhook]
  · simp [flaw?, hkind, hcarriers, hhook, hgripper]

end Pass

/-- The carriers that an instruction brings in. -/
def Instruction.broughtIn : Instruction → List String
  | .bringIn _ names => names
  | _ => []

/-- A stitch without carriers, or a transfer. -/
def Instruction.IsBare (i : Instruction) : Prop :=
  (∃ op direction n, i = .stitch op direction n []) ∨
    ∃ direction source target, i = .split direction source target []

namespace Machine

/-! ## Letting a group wait no longer -/

/-- One carrier of a group waits no longer, and what it waited for is kept. -/
def takeOne (s : Carriers × Option PendingIn) (name : String) : Carriers × Option PendingIn :=
  match (s.1.get? name).bind (·.pending) with
  | none => s
  | some p => (s.1.update name fun c => { c with pending := none }, some p)

theorem takePending_eq (t : Carriers) (names : List String) :
    takePending t names = names.foldl takeOne (t, none) := rfl

theorem takeOne_kept (s : Carriers × Option PendingIn) (name : String) :
    (takeOne s name).1.members.map (·.name) = s.1.members.map (·.name) ∧
      (takeOne s name).1.declared = s.1.declared ∧
        (takeOne s name).1.fromHeader = s.1.fromHeader := by
  unfold takeOne
  split
  · exact ⟨rfl, rfl, rfl⟩
  · exact ⟨Carriers.names_update (f := fun c => { c with pending := none }) (fun _ => rfl) _ _,
      rfl, rfl⟩

/-- Who is active and what is declared does not depend on who waits. -/
theorem takePending_kept (t : Carriers) (names : List String) :
    (takePending t names).1.members.map (·.name) = t.members.map (·.name) ∧
      (takePending t names).1.declared = t.declared ∧
        (takePending t names).1.fromHeader = t.fromHeader := by
  rw [takePending_eq]
  refine List.foldlRecOn names takeOne (motive := fun s =>
    s.1.members.map (·.name) = t.members.map (·.name) ∧ s.1.declared = t.declared ∧
      s.1.fromHeader = t.fromHeader) ?_ ?_
  · exact ⟨rfl, rfl, rfl⟩
  intro s ⟨hnames, hdeclared, hheader⟩ name _
  obtain ⟨hnames', hdeclared', hheader'⟩ := takeOne_kept s name
  exact ⟨hnames'.trans hnames, hdeclared'.trans hdeclared, hheader'.trans hheader⟩

theorem names_takePending (t : Carriers) (names : List String) :
    (takePending t names).1.members.map (·.name) = t.members.map (·.name) :=
  (takePending_kept t names).1

theorem takePending_declared (t : Carriers) (names : List String) :
    (takePending t names).1.declared = t.declared ∧
      (takePending t names).1.fromHeader = t.fromHeader :=
  (takePending_kept t names).2

/-! ## Using a group -/

/-- The pass that brings in the group which waits for its first stitch. -/
def startWith (p : Pass) (kind : InKind) : Pass :=
  { p with
    gripper := some .bringIn
    hook := match kind with
      | .plain => p.hook
      | .hook => some .bringIn }

/-- A group can be used if all of it is active and, if any of it waits for its first stitch, what
the last of these waits for is exactly this group. -/
theorem use_eq_ok_iff {carriers t : Carriers} {names : List String} {p p' : Pass} :
    use carriers names p = (t, .ok p') ↔
      (∀ name ∈ names, carriers.isActive name = true) ∧ t = (takePending carriers names).1 ∧
        ((takePending carriers names).2 = none ∧ p' = p ∨
          ∃ pending, (takePending carriers names).2 = some pending ∧ pending.carriers = names ∧
            p' = startWith p pending.kind) := by
  unfold use
  cases hfind : names.find? fun name => !carriers.isActive name with
  | some name =>
    have hname := List.find?_some hfind
    have hmem := List.mem_of_find?_eq_some hfind
    simp only [Bool.not_eq_true'] at hname
    simp only [Prod.mk.injEq, reduceCtorEq, and_false, false_iff, not_and]
    intro hall
    simp [hall name hmem] at hname
  | none =>
    have hall : ∀ name ∈ names, carriers.isActive name = true := by simpa using hfind
    rw [and_iff_right hall]
    obtain ⟨cleared, pending⟩ := takePending carriers names
    cases pending with
    | none => simp [eq_comm]
    | some pending =>
      obtain ⟨kind, group⟩ := pending
      by_cases hgroup : group = names
      · cases kind <;> simp [hgroup, startWith, eq_comm]
      · simp [hgroup]

/-- A group is refused for a carrier that is not in, or for being the wrong one. By then none of the
wrong one waits any more. -/
theorem use_eq_error {carriers t : Carriers} {names : List String} {p : Pass} {e : Error}
    (h : use carriers names p = (t, .error e)) :
    (∃ name, e = .inactiveCarrier name ∧ t = carriers) ∨
      ∃ group, e = .firstUseMismatch names group ∧ t = (takePending carriers names).1 := by
  unfold use at h
  split at h
  · next name _ =>
    obtain ⟨rfl, he⟩ := Prod.mk.inj h
    exact .inl ⟨name, (Except.error.inj he).symm, rfl⟩
  · split at h
    · simp at h
    · next cleared pending htake =>
      dsimp only at h
      split at h
      · obtain ⟨rfl, he⟩ := Prod.mk.inj h
        exact .inr ⟨pending.carriers, (Except.error.inj he).symm, by rw [htake]⟩
      · simp at h

/-- Two tables with the same active carriers, of which the same waits, refuse a group for the same
reason or let it be used. What holds between them and between the passes goes on holding. -/
theorem use_rel {R : Carriers → Carriers → Prop} {S : Pass → Pass → Prop} {t t' : Carriers}
    {names : List String} (p p' : Pass) (h : R t t') (hactive : t.isActive = t'.isActive)
    (htaken : R (takePending t names).1 (takePending t' names).1)
    (hpending : (takePending t names).2 = (takePending t' names).2)
    (hp : S p p') (hstart : ∀ kind, S (startWith p kind) (startWith p' kind)) :
    R (use t names p).1 (use t' names p').1 ∧
      ((∃ e, (use t names p).2 = .error e ∧ (use t' names p').2 = .error e) ∨
        ∃ q q', (use t names p).2 = .ok q ∧ (use t' names p').2 = .ok q' ∧ S q q') := by
  unfold use
  rw [hactive]
  cases names.find? fun name => !t'.isActive name with
  | some name => exact ⟨h, .inl ⟨_, rfl, rfl⟩⟩
  | none =>
    dsimp only
    generalize takePending t names = s at htaken hpending ⊢
    generalize takePending t' names = s' at htaken hpending ⊢
    obtain ⟨u, pending⟩ := s
    obtain ⟨u', pending'⟩ := s'
    dsimp only at htaken hpending
    subst hpending
    cases pending with
    | none => exact ⟨htaken, .inr ⟨p, p', rfl, rfl, hp⟩⟩
    | some pending =>
      dsimp only
      split
      · exact ⟨htaken, .inl ⟨_, rfl, rfl⟩⟩
      · exact ⟨htaken, .inr ⟨_, _, rfl, rfl, hstart pending.kind⟩⟩

/-! ## Stitches and splits -/

/-- Two needles face each other if they are on opposite sides and have the same slot. -/
theorem splitPlace_eq_ok_iff {source target : Needle} {racking : Float} {withYarn : Bool}
    {kind : PassKind} {slot : Int} :
    splitPlace source target racking withYarn = .ok (kind, slot) ↔
      splitKind source target withYarn = .ok kind ∧ source.bed.side ≠ target.bed.side ∧
        source.slot racking = .ok slot ∧ target.slot racking = .ok slot := by
  unfold splitPlace
  cases splitKind source target withYarn with
  | error e => simp [bind, Except.bind]
  | ok kind' =>
    by_cases hside : source.bed.side = target.bed.side
    · simp [bind, Except.bind, throw, throwThe, MonadExceptOf.throw, hside]
    · cases source.slot racking with
      | error e => simp [bind, Except.bind, hside]
      | ok slot' =>
        cases target.slot racking with
        | error e => simp [bind, Except.bind, hside]
        | ok facing =>
          by_cases hfacing : slot' = facing
          · simp [bind, Except.bind, hside, hfacing, pure, Except.pure]
          · simp only [bind, Except.bind, throw, throwThe, MonadExceptOf.throw, hside, hfacing,
              if_false, ne_eq, not_false_eq_true, if_true, reduceCtorEq, Except.ok.injEq, false_iff]
            rintro ⟨-, -, rfl, rfl⟩
            exact hfacing rfl

/-- Loops are moved with yarn by a split, and without by a transfer. -/
theorem isTransfer_of_splitPlace {source target : Needle} {racking : Float} {withYarn : Bool}
    {kind : PassKind} {slot : Int}
    (h : splitPlace source target racking withYarn = .ok (kind, slot)) :
    kind.isTransfer = !withYarn := by
  have hkind := (splitPlace_eq_ok_iff.1 h).1
  unfold splitKind at hkind
  split at hkind <;> cases hkind <;> rfl

section Yarn

variable {α : Type}

/-- A pass with yarn: its group is used, the fabric is worked on in the lane of the group's first
carrier, the group is parked at the needle, and the pass is scheduled. -/
def withYarn (m : Machine α) (leader : String) (names : List String) (direction : Direction)
    (n : Needle) (p : Pass) (work : Fabric α → Lane → Fabric α × Option Warning × List Event) :
    Step α :=
  match use m.carriers names p with
  | (carriers, .error e) => { m with carriers }.fail e
  | (carriers, .ok p) =>
    match carriers.lane? leader with
    | none => { m with carriers }.fail (.inactiveCarrier leader)
    | some lane =>
      let (fabric, warning, events) := work m.fabric lane
      ({ m with carriers, fabric }.park names direction n).submit p warning events

variable [Scalar α]

theorem stitch_eq_withYarn {m : Machine α} {op : StitchOp} {direction : Direction} {n : Needle}
    {leader : String} {rest : List String} {slot : Int} (hbed : n.bed.isSlider = false)
    (hslot : n.slot m.racking = .ok slot) :
    m.stitch op direction n (leader :: rest) =
      m.withYarn leader (leader :: rest) direction n
        (m.singlePass .knitTuck slot (slotOp op n.bed.isFront) direction (leader :: rest))
        fun f lane => (stitchFabric f op direction n lane, none, []) := by
  unfold stitch withYarn
  simp only [hbed, hslot]
  rfl

/-- What a split does to the fabric: the loops of its needle are moved, if there are any, and a new
one is knit in their place. -/
def splitFabric (source target : Needle) (direction : Direction) (f : Fabric α) (lane : Lane) :
    Fabric α × Option Warning × List Event :=
  match f.transfer source target lane.count with
  | .error w => ((f.knit direction source lane).1, some w, [])
  | .ok (moved, events) => ((moved.knit direction source lane).1, none, events)

theorem split_eq_withYarn {m : Machine α} {direction : Direction} {source target : Needle}
    {leader : String} {rest : List String} {kind : PassKind} {slot : Int}
    (hplace : splitPlace source target m.racking true = .ok (kind, slot)) :
    m.split direction source target (leader :: rest) =
      m.withYarn leader (leader :: rest) direction source
        (m.singlePass kind slot (splitOp source.bed.isFront true) direction (leader :: rest))
        (splitFabric source target direction) := by
  unfold split withYarn splitFabric
  have hyarn : (!(leader :: rest).isEmpty) = true := rfl
  rw [hyarn, hplace]
  dsimp only
  generalize use m.carriers _ _ = used
  obtain ⟨carriers, _ | p⟩ := used
  · rfl
  · dsimp only
    cases carriers.lane? leader with
    | none => rfl
    | some lane =>
      dsimp only
      cases m.fabric.transfer source target lane.count <;> rfl

/-- The slot at which a needle is stitched. -/
def stitchSlot (n : Needle) (racking : Float) : Except Error Int :=
  if n.bed.isSlider then .error (.stitchOnSlider n) else n.slot racking

/-- A stitch is refused for the place of its needle, or made without yarn or with that of a
group. -/
theorem stitch_eq (m : Machine α) (op : StitchOp) (direction : Direction) (n : Needle)
    (names : List String) :
    m.stitch op direction n names =
      match stitchSlot n m.racking, names with
      | .error e, _ => m.fail e
      | .ok slot, [] => m.stitchBare op n slot
      | .ok slot, leader :: rest => m.withYarn leader (leader :: rest) direction n
        (m.singlePass .knitTuck slot (slotOp op n.bed.isFront) direction (leader :: rest))
        fun f lane => (stitchFabric f op direction n lane, none, []) := by
  unfold stitchSlot
  cases hbed : n.bed.isSlider with
  | true => rw [stitch, if_pos hbed, if_pos rfl]
  | false =>
    rw [if_neg Bool.false_ne_true]
    cases hslot : n.slot m.racking with
    | error e => rw [stitch, if_neg (by simp [hbed]), hslot]
    | ok slot =>
      cases names with
      | nil => rw [stitch, if_neg (by simp [hbed]), hslot]
      | cons leader rest => exact stitch_eq_withYarn hbed hslot

/-- What a transfer does as an instruction: it warns of an empty needle, or else moves the loops and
schedules its pass. -/
def splitBare (m : Machine α) (source target : Needle) (p : Pass) : Step α :=
  match m.fabric.transfer source target m.carriers.declared.length with
  | .error w => m.skip w
  | .ok (fabric, events) => { m with fabric }.submit p none events

/-- A split is refused for the places of its needles, or loops are moved without yarn or with that
of a group. -/
theorem split_eq (m : Machine α) (direction : Direction) (source target : Needle)
    (names : List String) :
    m.split direction source target names =
      match splitPlace source target m.racking (!names.isEmpty), names with
      | .error e, _ => m.fail e
      | .ok (kind, slot), [] => m.splitBare source target
        (m.singlePass kind slot (splitOp source.bed.isFront false) direction [])
      | .ok (kind, slot), leader :: rest => m.withYarn leader (leader :: rest) direction source
        (m.singlePass kind slot (splitOp source.bed.isFront true) direction (leader :: rest))
        (splitFabric source target direction) := by
  cases hplace : splitPlace source target m.racking (!names.isEmpty) with
  | error e => rw [split, hplace]
  | ok place =>
    obtain ⟨kind, slot⟩ := place
    cases names with
    | nil =>
      rw [split, hplace]
      rfl
    | cons leader rest => exact split_eq_withYarn hplace

/-- A stitch is refused, or made without yarn or with that of a group. -/
theorem stitch_cases (m : Machine α) (op : StitchOp) (direction : Direction) (n : Needle)
    (names : List String) :
    (∃ e, m.stitch op direction n names = m.fail e) ∨
    (∃ slot, names = [] ∧ m.stitch op direction n names = m.stitchBare op n slot) ∨
    ∃ leader rest slot, names = leader :: rest ∧
      m.stitch op direction n names = m.withYarn leader (leader :: rest) direction n
        (m.singlePass .knitTuck slot (slotOp op n.bed.isFront) direction (leader :: rest))
        fun f lane => (stitchFabric f op direction n lane, none, []) := by
  rw [stitch_eq]
  cases stitchSlot n m.racking with
  | error e => exact .inl ⟨e, rfl⟩
  | ok slot =>
    cases names with
    | nil => exact .inr (.inl ⟨slot, rfl, rfl⟩)
    | cons leader rest => exact .inr (.inr ⟨leader, rest, slot, rfl, rfl⟩)

/-- A split is refused, or loops are moved without yarn, if there are any, or with that of a
group. -/
theorem split_cases (m : Machine α) (direction : Direction) (source target : Needle)
    (names : List String) :
    (∃ e, m.split direction source target names = m.fail e) ∨
    (names = [] ∧ ((∃ w, m.fabric.transfer source target m.carriers.declared.length = .error w ∧
        m.split direction source target names = m.skip w) ∨
      ∃ fabric events kind slot,
        m.fabric.transfer source target m.carriers.declared.length = .ok (fabric, events) ∧
        m.split direction source target names = { m with fabric }.submit
          (m.singlePass kind slot (splitOp source.bed.isFront false) direction []) none events)) ∨
    ∃ leader rest kind slot, names = leader :: rest ∧ kind.isTransfer = false ∧
      m.split direction source target names = m.withYarn leader (leader :: rest) direction source
        (m.singlePass kind slot (splitOp source.bed.isFront true) direction (leader :: rest))
        (splitFabric source target direction) := by
  rw [split_eq]
  cases hplace : splitPlace source target m.racking (!names.isEmpty) with
  | error e => exact .inl ⟨e, rfl⟩
  | ok place =>
    obtain ⟨kind, slot⟩ := place
    cases names with
    | nil =>
      refine .inr (.inl ⟨rfl, ?_⟩)
      dsimp only [splitBare]
      cases htransfer : m.fabric.transfer source target m.carriers.declared.length with
      | error w => exact .inl ⟨w, rfl, rfl⟩
      | ok moved => exact .inr ⟨moved.1, moved.2, kind, slot, rfl, rfl⟩
    | cons leader rest =>
      exact .inr (.inr ⟨leader, rest, kind, slot, rfl, isTransfer_of_splitPlace hplace, rfl⟩)

end Yarn

/-! ## The effect of an instruction -/

section Effect

variable {α : Type}

/-- What an instruction that succeeds makes of a machine. -/
inductive Effect (m : Machine α) : Instruction → Machine α → Prop where
  /-- Nothing changes. -/
  | idle {i : Instruction} (hi : i.broughtIn = []) : Effect m i m
  | bringIn {kind : InKind} {names : List String} {carriers : Carriers} {hook : Hook}
      (hnames : names ≠ []) (hin : m.carriers.bringIn kind names = .ok carriers)
      (hhook : kind = .plain ∧ hook = m.hook ∨ kind = .hook ∧ m.hook.hold names = .ok hook) :
      Effect m (.bringIn kind names) { m with carriers, hook }
  | releaseHook {names : List String} {hook : Hook} (hhook : m.hook.release names = .ok hook) :
      Effect m (.releaseHook names) { m with hook, schedule := m.schedule.release.1 }
  | takeOut {withHook : Bool} {names : List String} (hnames : names ≠ [])
      (hout : outRefusal? m.carriers names = none)
      (hhook : withHook = true → m.hook.held = none) :
      Effect m (.takeOut withHook names)
        { m with
          schedule := (m.schedule.takeOut names withHook).1
          carriers := m.carriers.removeAll names }
  | rack (racking : Float) : Effect m (.rack racking) { m with racking }
  /-- A pass without yarn is scheduled. -/
  | bare {i : Instruction} {kind : PassKind} {slot : Int} {op : SlotOp} {direction : Direction}
      {fabric : Fabric α} {r : Submission} (hi : i.IsBare)
      (hsubmit : m.schedule.submit m.carriers m.racking
        (m.singlePass kind slot op direction []) = .ok r) :
      Effect m i
        { m with
          fabric, schedule := r.schedule, carriers := r.carriers, kicks := m.kicks + r.kicks }
  /-- A group is used and parked, and its pass is scheduled. -/
  | yarn {i : Instruction} {direction : Direction} {n : Needle} {names : List String}
      {kind : PassKind} {slot : Int} {slotOp : SlotOp} {t : Carriers} {p : Pass}
      {fabric : Fabric α} {r : Submission}
      (hi : (∃ op, i = .stitch op direction n names) ∨
        ∃ target, i = .split direction n target names)
      (hnames : names ≠ [])
      (huse : use m.carriers names (m.singlePass kind slot slotOp direction names) = (t, .ok p))
      (hsubmit : m.schedule.submit (t.park names ⟨n, direction, m.config.stoppingDistance⟩)
        m.racking p = .ok r) :
      Effect m i
        { m with
          fabric, schedule := r.schedule, carriers := r.carriers, kicks := m.kicks + r.kicks }

/-- What an instruction that fails can leave of the carriers: it brought a group in for which the
hook is busy, or it let a group wait no longer that it cannot use. -/
def LeftByFailure (carriers t : Carriers) : Prop :=
  t = carriers ∨ (∃ kind names, carriers.bringIn kind names = .ok t) ∨
    ∃ names, t = (takePending carriers names).1

/-- How a step ends: with an error and none but the carriers touched, or with an effect. -/
def Ends (m : Machine α) (i : Instruction) (s : Step α) : Prop :=
  (∃ e t, s.outcome = .error e ∧ LeftByFailure m.carriers t ∧
    s.machine = { m with carriers := t }) ∨
  ∃ w, s.outcome = .ok w ∧ m.Effect i s.machine

variable {m : Machine α} {i : Instruction}

theorem ends_fail (m : Machine α) (i : Instruction) (e : Error) : m.Ends i (m.fail e) :=
  .inl ⟨e, m.carriers, rfl, .inl rfl, rfl⟩

theorem ends_bringIn (m : Machine α) (kind : InKind) (names : List String) :
    m.Ends (.bringIn kind names) (m.bringIn kind names) := by
  unfold bringIn
  split
  · exact ends_fail ..
  · next hnames =>
    rw [List.isEmpty_iff] at hnames
    split
    · exact ends_fail ..
    · next t hin =>
      cases kind with
      | plain => exact .inr ⟨none, rfl, .bringIn hnames hin (.inl ⟨rfl, rfl⟩)⟩
      | hook =>
        dsimp only
        split
        · next e hhook => exact .inl ⟨e, t, rfl, .inr (.inl ⟨_, _, hin⟩), rfl⟩
        · next hook hhook => exact .inr ⟨none, rfl, .bringIn hnames hin (.inr ⟨rfl, hhook⟩)⟩

theorem ends_releaseHook (m : Machine α) (names : List String) :
    m.Ends (.releaseHook names) (m.releaseHook names) := by
  unfold releaseHook
  split
  · exact ends_fail ..
  · next hook hhook => exact .inr ⟨none, rfl, .releaseHook hhook⟩

theorem ends_takeOut (m : Machine α) (withHook : Bool) (names : List String) :
    m.Ends (.takeOut withHook names) (m.takeOut withHook names) := by
  unfold takeOut
  split
  · exact ends_fail ..
  · next hnames =>
    rw [List.isEmpty_iff] at hnames
    split
    · exact ends_fail ..
    · next hout =>
      split
      · exact ends_fail ..
      · next hbusy =>
        refine .inr ⟨none, rfl, .takeOut hnames hout ?_⟩
        rintro rfl
        cases hheld : m.hook.held with
        | none => rfl
        | some held => exact (hbusy held rfl hheld).elim

/-- A pass that can be carried out is scheduled. -/
theorem submit_eq_of_validate {p : Pass} (hvalid : p.validate = .ok ()) (m : Machine α)
    (w : Option Warning) (events : List Event) :
    ∃ r, m.schedule.submit m.carriers m.racking p = .ok r ∧ m.submit p w events =
      ⟨{ m with schedule := r.schedule, carriers := r.carriers, kicks := m.kicks + r.kicks }, .ok w,
        events ++ r.events⟩ := by
  refine ⟨_, by rw [Schedule.submit, hvalid], ?_⟩
  rw [submit, Schedule.submit, hvalid]

theorem ends_bare {kind : PassKind} {slot : Int} {op : SlotOp} {direction : Direction}
    (hi : i.IsBare) (m : Machine α) (fabric : Fabric α) (w : Option Warning)
    (events : List Event) :
    m.Ends i ({ m with fabric }.submit (m.singlePass kind slot op direction []) w events) := by
  obtain ⟨r, hsubmit, hstep⟩ := submit_eq_of_validate
    (p := m.singlePass kind slot op direction []) (Pass.validate_bare rfl rfl rfl)
    { m with fabric } w events
  rw [hstep]
  exact .inr ⟨w, rfl, .bare hi hsubmit⟩

theorem validate_of_use {carriers t : Carriers} {names : List String} {kind : PassKind} {slot : Int}
    {op : SlotOp} {direction : Direction} {p : Pass} (hkind : kind.isTransfer = false)
    (hnames : names ≠ [])
    (huse : use carriers names (m.singlePass kind slot op direction names) = (t, .ok p)) :
    p.validate = .ok () := by
  obtain ⟨-, -, ⟨-, rfl⟩ | ⟨pending, -, -, rfl⟩⟩ := use_eq_ok_iff.1 huse
  · exact Pass.validate_yarn hkind hnames (.inl rfl)
  · obtain ⟨kind', group⟩ := pending
    cases kind' with
    | plain => exact Pass.validate_yarn hkind hnames (.inl rfl)
    | hook => exact Pass.validate_yarn hkind hnames (.inr ⟨rfl, rfl⟩)

theorem ends_withYarn {direction : Direction} {n : Needle} {leader : String} {rest : List String}
    {kind : PassKind} {slot : Int} {slotOp : SlotOp} (hkind : kind.isTransfer = false)
    (hi : (∃ op, i = .stitch op direction n (leader :: rest)) ∨
      ∃ target, i = .split direction n target (leader :: rest))
    (m : Machine α) (work : Fabric α → Lane → Fabric α × Option Warning × List Event) :
    m.Ends i (m.withYarn leader (leader :: rest) direction n
      (m.singlePass kind slot slotOp direction (leader :: rest)) work) := by
  have hnames : leader :: rest ≠ [] := List.cons_ne_nil _ _
  unfold withYarn
  split
  · next t e huse =>
    refine .inl ⟨e, t, rfl, ?_, rfl⟩
    rcases use_eq_error huse with ⟨-, -, ht⟩ | ⟨-, -, ht⟩
    · exact .inl ht
    · exact .inr (.inr ⟨_, ht⟩)
  · next t p huse =>
    have ht := (use_eq_ok_iff.1 huse).2.1
    split
    · exact .inl ⟨_, t, rfl, .inr (.inr ⟨_, ht⟩), rfl⟩
    · next lane hlane =>
      obtain ⟨r, hsubmit, hstep⟩ := submit_eq_of_validate (validate_of_use hkind hnames huse)
        ({ m with carriers := t, fabric := (work m.fabric lane).1 }.park (leader :: rest) direction
          n) (work m.fabric lane).2.1 (work m.fabric lane).2.2
      dsimp only
      rw [hstep]
      exact .inr ⟨_, rfl, .yarn hi hnames huse hsubmit⟩

theorem ends_stitchBare (m : Machine α) (op : StitchOp) (direction : Direction) (n : Needle)
    (slot : Int) : m.Ends (.stitch op direction n []) (m.stitchBare op n slot) := by
  have hbare : (Instruction.stitch op direction n []).IsBare := .inl ⟨op, direction, n, rfl⟩
  unfold stitchBare
  cases op with
  | miss => exact ends_fail ..
  | tuck => exact ends_bare hbare m m.fabric none []
  | knit =>
    dsimp only
    cases m.fabric.drop n with
    | error w => exact .inr ⟨some w, rfl, .idle rfl⟩
    | ok dropped => exact ends_bare hbare m dropped.1 none dropped.2

variable [Scalar α]

theorem ends_stitch (m : Machine α) (op : StitchOp) (direction : Direction) (n : Needle)
    (names : List String) :
    m.Ends (.stitch op direction n names) (m.stitch op direction n names) := by
  rcases m.stitch_cases op direction n names with
    ⟨e, heq⟩ | ⟨slot, rfl, heq⟩ | ⟨leader, rest, slot, rfl, heq⟩
  · exact heq ▸ ends_fail ..
  · exact heq ▸ ends_stitchBare m op direction n slot
  · rw [heq]
    exact ends_withYarn rfl (.inl ⟨op, rfl⟩) m _

theorem ends_split (m : Machine α) (direction : Direction) (source target : Needle)
    (names : List String) :
    m.Ends (.split direction source target names) (m.split direction source target names) := by
  rcases m.split_cases direction source target names with
    ⟨e, heq⟩ | ⟨rfl, ⟨w, -, heq⟩ | ⟨fabric, events, kind, slot, -, heq⟩⟩ |
      ⟨leader, rest, kind, slot, rfl, hkind, heq⟩
  · exact heq ▸ ends_fail ..
  · exact heq ▸ .inr ⟨some w, rfl, .idle rfl⟩
  · exact heq ▸ ends_bare (.inr ⟨_, _, _, rfl⟩) m fabric none events
  · rw [heq]
    exact ends_withYarn hkind (.inr ⟨target, rfl⟩) m _

/-- What an instruction does to a machine. -/
theorem ends_execute (m : Machine α) (i : Instruction) : m.Ends i (m.execute i) := by
  cases i with
  | bringIn kind names => exact ends_bringIn m kind names
  | releaseHook names => exact ends_releaseHook m names
  | takeOut withHook names => exact ends_takeOut m withHook names
  | stitch op direction n names => exact ends_stitch m op direction n names
  | split direction source target names => exact ends_split m direction source target names
  | rack racking => exact .inr ⟨none, rfl, .rack racking⟩
  | pause => exact .inr ⟨none, rfl, .idle rfl⟩
  | extension op => exact .inr ⟨some _, rfl, .idle rfl⟩
  | unsupported op => exact .inr ⟨some _, rfl, .idle rfl⟩

end Effect

end Machine

end Knitting
