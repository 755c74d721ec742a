import Knitting.Proofs.Fabric.Effect
import Knitting.Proofs.Machine.Waiting

set_option autoImplicit false

/-! # What an instruction asks of the fabric and declares

The fabric changes only by the calls that instructions make on it (`Machine.execute_fabric`). A
stitch is made in the lane of the carrier that leads its group, which is its place among the
carriers that are declared by then; and what is declared by then is what was brought in
(`Machine.Effect.declared`). -/

namespace Knitting

/-- A call on the fabric, with the carrier that leads the group if it is a stitch. -/
structure FabricCall where
  leader : Option String
  operation : Operation
  deriving DecidableEq, Repr

namespace Instruction

/-- A stitch in the lane of the carrier that leads its group. -/
def stitchCall (carriers : Carriers) (knit : Bool) (direction : Direction) (n : Needle)
    (leader : String) : List FabricCall :=
  match carriers.lane? leader with
  | none => []
  | some lane => [⟨some leader, .stitch knit direction n lane⟩]

/-- The calls on the fabric that an instruction makes, if it succeeds. -/
def calls (carriers : Carriers) : Instruction → List FabricCall
  | .stitch .knit _ n [] => [⟨none, .drop n⟩]
  | .stitch .knit direction n (leader :: _) => stitchCall carriers true direction n leader
  | .stitch .tuck direction n (leader :: _) => stitchCall carriers false direction n leader
  | .split _ source target [] => [⟨none, .transfer source target carriers.declared.length⟩]
  | .split direction source target (leader :: _) =>
    ⟨none, .transfer source target carriers.declared.length⟩ ::
      stitchCall carriers true direction source leader
  | _ => []

/-- The carrier that leads the group of an instruction, if it makes a loop. -/
def leader? : Instruction → Option String
  | .stitch .knit _ _ (leader :: _) => some leader
  | .stitch .tuck _ _ (leader :: _) => some leader
  | .split _ _ _ (leader :: _) => some leader
  | _ => none

theorem mem_stitchCall_iff {carriers : Carriers} {knit : Bool} {direction : Direction} {n : Needle}
    {leader name : String} {lane : Lane} :
    (∃ knit' direction' n', ⟨some name, .stitch knit' direction' n' lane⟩ ∈
      stitchCall carriers knit direction n leader) ↔
    leader = name ∧ carriers.lane? name = some lane := by
  constructor
  · rintro ⟨knit', direction', n', hmem⟩
    unfold stitchCall at hmem
    split at hmem
    · simp at hmem
    · next lane' hlane =>
      simp only [List.mem_singleton, FabricCall.mk.injEq, Option.some.injEq,
        Operation.stitch.injEq] at hmem
      obtain ⟨rfl, -, -, -, rfl⟩ := hmem
      exact ⟨rfl, hlane⟩
  · rintro ⟨rfl, hlane⟩
    exact ⟨knit, direction, n, by simp [stitchCall, hlane]⟩

/-- A stitch is made with the lane that its leader has at that moment. -/
theorem mem_calls_iff {carriers : Carriers} {i : Instruction} {name : String} {lane : Lane} :
    (∃ knit direction n, ⟨some name, .stitch knit direction n lane⟩ ∈ i.calls carriers) ↔
      i.leader? = some name ∧ carriers.lane? name = some lane := by
  unfold calls leader?
  split
  · simp
  · simpa only [Option.some.injEq] using mem_stitchCall_iff
  · simpa only [Option.some.injEq] using mem_stitchCall_iff
  · simp
  · -- The loops that a split moves are in no lane of their own.
    simpa only [List.mem_cons, FabricCall.mk.injEq, reduceCtorEq, false_and, false_or,
      Option.some.injEq] using mem_stitchCall_iff
  · simp

end Instruction

namespace Machine

variable {α : Type} {m : Machine α}

theorem fabric_submit (m : Machine α) (p : Pass) (w : Option Warning) (events : List Event) :
    (m.submit p w events).machine.fabric = m.fabric := by
  unfold submit
  split <;> rfl

/-- Letting a group wait no longer moves no lane. -/
theorem lane?_takePending (t : Carriers) (names : List String) (name : String) :
    (takePending t names).1.lane? name = t.lane? name := by
  rw [Carriers.lane?, (takePending_declared t names).1, ← Carriers.lane?]

theorem count_of_lane? {t : Carriers} {name : String} {lane : Lane}
    (h : t.lane? name = some lane) : lane.count = t.declared.length := by
  obtain ⟨i, -, rfl⟩ := Option.map_eq_some_iff.1 h
  rfl

theorem withYarn_fabric {leader : String} {names : List String} {direction : Direction} {n : Needle}
    {p : Pass} {work : Fabric α → Lane → Fabric α × Option Warning × List Event}
    (h : (m.withYarn leader names direction n p work).Succeeds) :
    ∃ lane, m.carriers.lane? leader = some lane ∧
      (m.withYarn leader names direction n p work).machine.fabric = (work m.fabric lane).1 := by
  unfold withYarn at h ⊢
  split at h
  · exact absurd h nofun
  · next t p' huse =>
    obtain ⟨-, rfl, -⟩ := use_eq_ok_iff.1 huse
    split at h
    · exact absurd h nofun
    · next lane hlane =>
      rw [lane?_takePending] at hlane
      exact ⟨lane, hlane, fabric_submit ..⟩

/-! ## What is declared -/

/-- What is declared after an instruction is what was declared before and what it brings in. After
a header nothing new can be brought in. -/
theorem Effect.declared {i : Instruction} {m' : Machine α} (h : m.Effect i m') :
    m'.carriers.declared = Carriers.appendNew m.carriers.declared i.broughtIn ∧
      m'.carriers.fromHeader = m.carriers.fromHeader ∧
      (m.carriers.fromHeader = true → i.broughtIn ⊆ m.carriers.declared) := by
  have hnone : ∀ {i : Instruction}, i.broughtIn = [] →
      (m.carriers.fromHeader = true → i.broughtIn ⊆ m.carriers.declared) := by
    intro i hi _
    rw [hi]
    exact List.nil_subset _
  cases h with
  | idle hi => exact ⟨by rw [hi]; rfl, rfl, hnone hi⟩
  | bringIn _ hin _ =>
    obtain ⟨hdeclared, hheader, -⟩ := Carriers.bringIn_spec hin
    exact ⟨hdeclared, hheader, (Carriers.exists_bringIn_eq_ok_iff.1 ⟨_, hin⟩).2⟩
  | releaseHook => exact ⟨rfl, rfl, hnone rfl⟩
  | takeOut =>
    obtain ⟨hdeclared, hheader⟩ := Carriers.removeAll_declared m.carriers _
    exact ⟨hdeclared, hheader, hnone rfl⟩
  | rack => exact ⟨rfl, rfl, hnone rfl⟩
  | bare hi hsubmit =>
    have hbrings : i.broughtIn = [] := by
      rcases hi with ⟨op, direction, n, rfl⟩ | ⟨direction, source, target, rfl⟩ <;> rfl
    obtain ⟨hdeclared, hheader⟩ := (Schedule.moved_submit hsubmit).declared
    exact ⟨by rw [hbrings]; exact hdeclared, hheader, hnone hbrings⟩
  | yarn hi _ huse hsubmit =>
    have hbrings : i.broughtIn = [] := by
      rcases hi with ⟨op, rfl⟩ | ⟨target, rfl⟩ <;> rfl
    obtain ⟨-, rfl, -⟩ := use_eq_ok_iff.1 huse
    obtain ⟨hdeclared, hheader⟩ := (Schedule.moved_submit hsubmit).declared
    rw [Carriers.park_eq_mapMembers, Carriers.declared_mapMembers,
      (takePending_declared _ _).1] at hdeclared
    rw [Carriers.park_eq_mapMembers, Carriers.fromHeader_mapMembers,
      (takePending_declared _ _).2] at hheader
    exact ⟨by rw [hbrings]; exact hdeclared, hheader, hnone hbrings⟩

/-! ## What is asked of the fabric -/

/-- An instruction that neither stitches nor moves loops leaves the fabric alone. -/
theorem Effect.fabric {i : Instruction} {m' : Machine α} (h : m.Effect i m')
    (hstitch : ∀ op direction n names, i ≠ .stitch op direction n names)
    (hsplit : ∀ direction source target names, i ≠ .split direction source target names) :
    m'.fabric = m.fabric := by
  cases h with
  | bare hi _ =>
    rcases hi with ⟨op, direction, n, rfl⟩ | ⟨direction, source, target, rfl⟩
    · exact (hstitch _ _ _ _ rfl).elim
    · exact (hsplit _ _ _ _ rfl).elim
  | yarn hi _ _ _ =>
    rcases hi with ⟨op, rfl⟩ | ⟨target, rfl⟩
    · exact (hstitch _ _ _ _ rfl).elim
    · exact (hsplit _ _ _ _ rfl).elim
  | _ => rfl

variable [Scalar α]

theorem stitch_fabric {op : StitchOp} {direction : Direction} {n : Needle} {names : List String}
    (h : (m.stitch op direction n names).Succeeds) :
    (m.stitch op direction n names).machine.fabric =
      (((Instruction.stitch op direction n names).calls m.carriers).map (·.operation)).foldl
        Fabric.apply m.fabric := by
  rcases m.stitch_cases op direction n names with
    ⟨e, heq⟩ | ⟨slot, rfl, heq⟩ | ⟨leader, rest, slot, rfl, heq⟩
  · exact absurd (heq ▸ h) (not_succeeds_fail m e)
  · rw [heq]
    unfold stitchBare
    cases op with
    | miss => rfl
    | tuck => exact fabric_submit ..
    | knit =>
      simp only [Instruction.calls, List.map_cons, List.map_nil, List.foldl_cons, List.foldl_nil,
        Fabric.apply]
      cases m.fabric.drop n with
      | error w => rfl
      | ok dropped => exact fabric_submit ..
  · rw [heq] at h ⊢
    obtain ⟨lane, hlane, hfabric⟩ := withYarn_fabric h
    rw [hfabric]
    cases op <;> simp [Instruction.calls, Instruction.stitchCall, hlane, stitchFabric, Fabric.apply]

theorem split_fabric {direction : Direction} {source target : Needle} {names : List String}
    (h : (m.split direction source target names).Succeeds) :
    (m.split direction source target names).machine.fabric =
      (((Instruction.split direction source target names).calls m.carriers).map
        (·.operation)).foldl Fabric.apply m.fabric := by
  rcases m.split_cases direction source target names with
    ⟨e, heq⟩ | ⟨rfl, ⟨w, htransfer, heq⟩ | ⟨fabric, events, kind, slot, htransfer, heq⟩⟩ |
      ⟨leader, rest, kind, slot, rfl, -, heq⟩
  · exact absurd (heq ▸ h) (not_succeeds_fail m e)
  · simp [heq, Instruction.calls, Fabric.apply, htransfer, skip]
  · simp [heq, Instruction.calls, Fabric.apply, htransfer, fabric_submit]
  · rw [heq] at h ⊢
    obtain ⟨lane, hlane, hfabric⟩ := withYarn_fabric h
    rw [hfabric, splitFabric]
    cases htransfer : m.fabric.transfer source target lane.count <;>
      simp [Instruction.calls, Instruction.stitchCall, hlane, ← count_of_lane? hlane, Fabric.apply,
        htransfer]

/-- An instruction that succeeds changes the fabric by the calls that it makes. -/
theorem execute_fabric {i : Instruction} (h : (m.execute i).Succeeds) :
    (m.execute i).machine.fabric =
      ((i.calls m.carriers).map (·.operation)).foldl Fabric.apply m.fabric := by
  cases i with
  | stitch op direction n names => exact stitch_fabric h
  | split direction source target names => exact split_fabric h
  | bringIn kind names => exact (effect_of_succeeds h).fabric nofun nofun
  | releaseHook names => exact (effect_of_succeeds h).fabric nofun nofun
  | takeOut withHook names => exact (effect_of_succeeds h).fabric nofun nofun
  | rack racking => rfl
  | pause => rfl
  | extension op => rfl
  | unsupported op => rfl

/-- Who leads a stitch that succeeds has a lane. -/
theorem exists_lane_of_succeeds {i : Instruction} {name : String} (hi : i.leader? = some name)
    (h : (m.execute i).Succeeds) : ∃ lane, m.carriers.lane? name = some lane := by
  have hstitch : ∀ {op : StitchOp} {direction : Direction} {n : Needle} {rest : List String},
      (m.stitch op direction n (name :: rest)).Succeeds →
      ∃ lane, m.carriers.lane? name = some lane := by
    intro op direction n rest h
    rcases m.stitch_cases op direction n (name :: rest) with
      ⟨e, heq⟩ | ⟨slot, hnil, -⟩ | ⟨leader, rest, slot, hnames, heq⟩
    · exact absurd (heq ▸ h) (not_succeeds_fail m e)
    · exact absurd hnil (List.cons_ne_nil _ _)
    · obtain ⟨rfl, rfl⟩ := List.cons.inj hnames
      obtain ⟨lane, hlane, -⟩ := withYarn_fabric (heq ▸ h)
      exact ⟨lane, hlane⟩
  have hsplit : ∀ {direction : Direction} {source target : Needle} {rest : List String},
      (m.split direction source target (name :: rest)).Succeeds →
      ∃ lane, m.carriers.lane? name = some lane := by
    intro direction source target rest h
    rcases m.split_cases direction source target (name :: rest) with
      ⟨e, heq⟩ | ⟨hnil, -⟩ | ⟨leader, rest, kind, slot, hnames, -, heq⟩
    · exact absurd (heq ▸ h) (not_succeeds_fail m e)
    · exact absurd hnil (List.cons_ne_nil _ _)
    · obtain ⟨rfl, rfl⟩ := List.cons.inj hnames
      obtain ⟨lane, hlane, -⟩ := withYarn_fabric (heq ▸ h)
      exact ⟨lane, hlane⟩
  unfold Instruction.leader? at hi
  split at hi
  · exact hstitch (Option.some.inj hi ▸ h)
  · exact hstitch (Option.some.inj hi ▸ h)
  · exact hsplit (Option.some.inj hi ▸ h)
  · simp at hi

end Machine

end Knitting
