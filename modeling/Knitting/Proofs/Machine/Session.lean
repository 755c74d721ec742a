import Knitting.Proofs.Fabric.Conservation
import Knitting.Proofs.Machine.Calls
import Knitting.Proofs.Machine.Reach

set_option autoImplicit false

/-! # Sessions that go on after failures

A session runs one instruction after the other, each on the machine that the one before it left,
also if that failed (`Machine.session`). What such a session makes of the fabric is a run of calls
again (`Machine.after_fabric`), since an instruction that fails leaves the fabric alone. So what was
said of runs holds of sessions: there is one loop for each stitch with yarn that succeeded. -/

namespace Knitting

namespace Machine

variable {α : Type} [Scalar α]

/-- The steps of a session. -/
def session (m : Machine α) : List Instruction → List (Step α)
  | [] => []
  | i :: is => m.execute i :: session (m.execute i).machine is

/-- What became of each instruction of a session. -/
def outcomes (m : Machine α) (is : List Instruction) : List (Except Error (Option Warning)) :=
  (m.session is).map (·.outcome)

/-- The machine that a session leaves. -/
def after (m : Machine α) (is : List Instruction) : Machine α :=
  is.foldl (fun m i => (m.execute i).machine) m

@[simp] theorem after_nil (m : Machine α) : m.after [] = m := rfl

@[simp] theorem after_cons (m : Machine α) (i : Instruction) (is : List Instruction) :
    m.after (i :: is) = (m.execute i).machine.after is := rfl

@[simp] theorem outcomes_nil (m : Machine α) : m.outcomes [] = [] := rfl

@[simp] theorem outcomes_cons (m : Machine α) (i : Instruction) (is : List Instruction) :
    m.outcomes (i :: is) = (m.execute i).outcome :: (m.execute i).machine.outcomes is := rfl

/-! ## The calls of a session -/

/-- The calls on the fabric of one step: none if it fails. -/
def stepOperations (m : Machine α) (i : Instruction) : List Operation :=
  if (m.execute i).outcome.isOk then (i.calls m.carriers).map (·.operation) else []

/-- The calls on the fabric of a session. -/
def operations (m : Machine α) : List Instruction → List Operation
  | [] => []
  | i :: is => m.stepOperations i ++ operations (m.execute i).machine is

/-- An instruction that fails leaves the fabric alone. -/
theorem fabric_of_error {m : Machine α} {i : Instruction} {e : Error}
    (h : (m.execute i).outcome = .error e) : (m.execute i).machine.fabric = m.fabric := by
  rcases ends_execute m i with ⟨e, t, -, -, hm⟩ | ⟨w, hok, -⟩
  · rw [hm]
  · simp [hok] at h

theorem fabric_execute (m : Machine α) (i : Instruction) :
    (m.execute i).machine.fabric = (m.stepOperations i).foldl Fabric.apply m.fabric := by
  unfold stepOperations
  cases h : (m.execute i).outcome with
  | error e => exact fabric_of_error h
  | ok w => exact execute_fabric ⟨w, h⟩

theorem after_fabric (m : Machine α) (is : List Instruction) :
    (m.after is).fabric = (m.operations is).foldl Fabric.apply m.fabric := by
  induction is generalizing m with
  | nil => rfl
  | cons i is ih => rw [after_cons, ih, operations, List.foldl_append, ← fabric_execute]

/-- A group that is led makes one loop, if its leader has a lane. -/
theorem countP_stitches_calls {carriers : Carriers} {i : Instruction}
    (h : ∀ name, i.leader? = some name → ∃ lane, carriers.lane? name = some lane) :
    ((i.calls carriers).map (·.operation)).countP (·.lane?.isSome) =
      if i.leader?.isSome then 1 else 0 := by
  have hcall : ∀ (knit : Bool) (direction : Direction) (n : Needle) (leader : String),
      i.leader? = some leader →
      ((Instruction.stitchCall carriers knit direction n leader).map (·.operation)).countP
        (·.lane?.isSome) = 1 := by
    intro knit direction n leader hleader
    obtain ⟨lane, hlane⟩ := h leader hleader
    simp [Instruction.stitchCall, hlane, Operation.lane?]
  unfold Instruction.calls
  split
  · rfl
  · exact hcall _ _ _ _ rfl
  · exact hcall _ _ _ _ rfl
  · rfl
  · simpa [Operation.lane?, Instruction.leader?] using hcall _ _ _ _ rfl
  · next hknit hdrop htuck hxfer hsplit =>
    unfold Instruction.leader?
    split
    · next direction n leader rest => exact absurd rfl (hdrop direction n leader rest)
    · next direction n leader rest => exact absurd rfl (htuck direction n leader rest)
    · next direction source target leader rest =>
      exact absurd rfl (hsplit direction source target leader rest)
    · rfl

theorem countP_stepOperations (m : Machine α) (i : Instruction) :
    (m.stepOperations i).countP (·.lane?.isSome) =
      if i.leader?.isSome && (m.execute i).outcome.isOk then 1 else 0 := by
  unfold stepOperations
  cases h : (m.execute i).outcome with
  | error e => simp [Except.isOk, Except.toBool]
  | ok w =>
    simp only [Except.isOk, Except.toBool, if_true, Bool.and_true]
    exact countP_stitches_calls fun name hname => exists_lane_of_succeeds hname ⟨w, h⟩

/-- A session stitches once for each instruction with a leader that succeeds. -/
theorem countP_operations (m : Machine α) (is : List Instruction) :
    (m.operations is).countP (·.lane?.isSome) =
      (is.zip (m.outcomes is)).countP fun (i, outcome) => i.leader?.isSome && outcome.isOk := by
  induction is generalizing m with
  | nil => rfl
  | cons i is ih =>
    rw [operations, List.countP_append, countP_stepOperations, ih, outcomes_cons,
      List.zip_cons_cons, List.countP_cons, Nat.add_comm]

end Machine

/-! ## Conservation -/

namespace Fabric

variable {α : Type} [Scalar α]

/-- No yarn is lost or made twice. After every run of calls the store counts one loop for each knit
and tuck, and they are the loops of the ledger, which notes each of them at one row and needle. What
is made is noted in the row that its stitch chose and stays there in all that follows, beside what
it shares a slot with; one call takes it to another needle only if it is a transfer between the two.
A knit replaces nothing. And a session, whatever carriers it starts with and whatever fails on the
way, has one loop for each knit, tuck and split with carriers that succeeded. -/
theorem loops_conserved (g : Geometry α) (ops : List Operation) :
    let f := run g ops
    let b := ledger g ops
    (f.store.loopCount = ops.countP (·.lane?.isSome) ∧ f.Tracks b ∧
        b.made.length = f.store.loopCount) ∧
      (∀ more, b.Keeps (ledger g (ops ++ more))) ∧
      (∀ op h n, ∃ n', b.slot h n <:+: (ledger g (ops ++ [op])).slot h n' ∧
        (n' = n ∨ ∃ laneCount, op = .transfer n n' laneCount)) ∧
      (∀ knit direction n lane,
        let row := f.stitchRow lane direction n knit
        row.lane = lane.index ∧ (ledger g (ops ++ [.stitch knit direction n lane])).slot row n =
          b.slot row n ++ [b.made.length]) ∧
      (∀ lane direction n height,
        (f.reach lane direction n height).1.rowLoops (f.stitchRow lane direction n true) n = []) ∧
      ∀ (config : Config α) (carriers : Carriers) (is : List Instruction),
        let m : Machine α := { Machine.initial config with carriers }
        (m.after is).fabric.store.loopCount =
          (is.zip (m.outcomes is)).countP fun (i, outcome) => i.leader?.isSome && outcome.isOk := by
  intro f b
  have htracks : f.Tracks b := tracks_ledger g ops
  refine ⟨⟨loopCount_run g ops, htracks, htracks.loopCount_eq.symm⟩, keeps_ledger g ops, ?_, ?_,
    ?_, ?_⟩
  · intro op h n
    rw [ledger_concat]
    exact slot_record f b op h n
  · intro knit direction n lane
    rw [ledger_concat]
    exact ⟨rfl, Ledger.slot_stitch_self ..⟩
  · intro lane direction n height
    exact (wellFormed_run g ops).rowLoops_reach_knit lane direction n height
  · intro config carriers is m
    have hrun : (m.after is).fabric = run config.geometry (m.operations is) := m.after_fabric is
    rw [hrun, loopCount_run, Machine.countP_operations]

end Fabric

end Knitting
