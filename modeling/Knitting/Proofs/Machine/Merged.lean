import Knitting.Proofs.Machine.BringIns
import Knitting.Proofs.Machine.Session
import Knitting.Proofs.Pass.Bare

set_option autoImplicit false

/-! # Merged transfers and drops

The transfers and drops of a session that are not refused are scheduled in passes without yarn, and
what one of these passes does is a stretch of the calls that the session makes on the fabric
(`Machine.Reachable.covers_handleAll`). So they can as well be made in the order of the slots
(`Machine.merged_in_any_order`). -/

namespace Knitting

/-! ## Calls that are accepted -/

namespace Fabric

variable {α : Type} [Scalar α]

/-- Those of some calls that are not refused, each on the fabric that the calls before it left. -/
def accepted (f : Fabric α) : List Operation → List Operation
  | [] => []
  | op :: ops =>
    match f.outcome op with
    | .ok _ => op :: (f.apply op).accepted ops
    | .error _ => f.accepted ops

theorem apply_of_refused {f : Fabric α} {op : Operation} {w : Warning}
    (h : f.outcome op = .error w) : f.apply op = f := by
  cases op with
  | stitch => simp [outcome] at h
  | transfer source target laneCount =>
    rw [outcome] at h
    rw [apply]
    cases htransfer : f.transfer source target laneCount with
    | error w => rfl
    | ok moved => simp [htransfer, Except.map] at h
  | drop n =>
    rw [outcome] at h
    rw [apply]
    cases hdrop : f.drop n with
    | error w => rfl
    | ok dropped => simp [hdrop, Except.map] at h

/-- What is refused leaves nothing behind. -/
theorem foldl_accepted (f : Fabric α) (ops : List Operation) :
    (f.accepted ops).foldl Fabric.apply f = ops.foldl Fabric.apply f := by
  induction ops generalizing f with
  | nil => rfl
  | cons op ops ih =>
    rw [accepted]
    cases h : f.outcome op with
    | ok events => exact ih (f.apply op)
    | error w => rw [List.foldl_cons, apply_of_refused h, ih]

end Fabric

namespace Machine

variable {α : Type} [Scalar α] {config : Config α} {allowed : Instruction → Step α → Prop}
  {m m' : Machine α} {ops : List Operation}

/-! ## The calls of a session -/

/-- The calls on the fabric that a request makes and that are not refused. -/
def work (m : Machine α) : Request → List Operation
  | .header _ => []
  | .execute i => m.fabric.accepted (m.stepOperations i)

/-- The calls on the fabric of a session. -/
def workAll (m : Machine α) : List Request → List Operation
  | [] => []
  | r :: rs => m.work r ++ (m.handle r).workAll rs

theorem fabric_handle (m : Machine α) (r : Request) :
    (m.handle r).fabric = (m.work r).foldl Fabric.apply m.fabric := by
  cases r with
  | header names => rfl
  | execute i =>
    rw [work, Fabric.foldl_accepted]
    exact m.fabric_execute i

theorem fabric_handleAll (m : Machine α) (rs : List Request) :
    (m.handleAll rs).fabric = (m.workAll rs).foldl Fabric.apply m.fabric := by
  induction rs generalizing m with
  | nil => rfl
  | cons r rs ih =>
    rw [workAll, List.foldl_append, ← fabric_handle]
    exact ih (m.handle r)

theorem stepOperations_of_error {i : Instruction} {e : Error}
    (h : (m.execute i).outcome = .error e) : m.stepOperations i = [] := by
  rw [stepOperations, h]
  rfl

theorem stepOperations_of_ok {i : Instruction} {w : Option Warning}
    (h : (m.execute i).outcome = .ok w) :
    m.stepOperations i = (i.calls m.carriers).map (·.operation) := by
  rw [stepOperations, h]
  rfl

/-- An instruction that fails makes no calls and leaves the schedule alone. -/
theorem covers_of_error (h : m.schedule.Covers ops) {i : Instruction} {e : Error}
    (herror : (m.execute i).outcome = .error e) :
    (m.execute i).machine.schedule.Covers (ops ++ m.work (.execute i)) := by
  have hwork : m.work (.execute i) = [] := by
    rw [work, stepOperations_of_error herror]
    rfl
  rw [hwork, List.append_nil]
  rcases ends_execute m i with ⟨e, t, -, -, hm⟩ | ⟨w, hok, -⟩
  · rw [hm]
    exact h
  · simp [herror] at hok

/-! ## Passes with yarn -/

/-- What a group does with its yarn is covered by no pass. -/
theorem Reachable.covers_uses (hm : Reachable config allowed m)
    (h : m.schedule.Covers ops) {names : List String} (hnames : names ≠ [])
    (huses : m.Uses names m') (more : List Operation) : m'.schedule.Covers (ops ++ more) := by
  obtain ⟨kind, slot, op, direction, last, t, p, r, huse, hsubmit, hschedule, -⟩ := huses
  obtain ⟨-, rfl, hpass⟩ := use_eq_ok_iff.1 huse
  have hmembers : (((takePending m.carriers names).1.park names last).members.map
      (·.name)).Nodup := by
    rw [Carriers.names_park, names_takePending]
    exact hm.nodup_names
  obtain ⟨kicks, r', hsubmit', hcascade, -⟩ :=
    Schedule.exists_cascade hm.countsKicks.plain hmembers (kick_of_use huse)
      (Schedule.validate_of_submit hsubmit) m.racking
  obtain rfl := Except.ok.inj (hsubmit.symm.trans hsubmit')
  have hkicks : ∀ k ∈ kicks, ¬k.IsBare := by
    intro k hk hbare
    obtain ⟨c, -, -, -, slot, direction, -, rfl⟩ := hcascade.kick k hk
    exact List.cons_ne_nil _ _ hbare.1
  have hcarriers : p.carriers = names := by
    rcases hpass with ⟨-, rfl⟩ | ⟨pending, -, -, rfl⟩ <;> rfl
  have hp : ¬p.IsBare := fun hbare => hnames (hcarriers ▸ hbare.1)
  rw [hschedule, hcascade.emitted, Schedule.appendAll, List.foldl_append]
  exact (h.yarnAll hkicks).yarn hp more

/-- A stitch or a split with the yarn of a group. -/
theorem Reachable.covers_withYarn (hm : Reachable config allowed m) (h : m.schedule.Covers ops)
    {i : Instruction} {kind : PassKind} (hkind : kind.isTransfer = false) {leader : String}
    {rest : List String} {direction : Direction} {n : Needle} {slot : Int} {op : SlotOp}
    {work : Fabric α → Lane → Fabric α × Option Warning × List Event}
    (hi : m.execute i = m.withYarn leader (leader :: rest) direction n
      (m.singlePass kind slot op direction (leader :: rest)) work) :
    (m.execute i).machine.schedule.Covers (ops ++ m.work (.execute i)) := by
  cases hok : (m.execute i).outcome with
  | error e => exact covers_of_error h hok
  | ok w =>
    have hsucceeds : (m.execute i).Succeeds := ⟨w, hok⟩
    rw [hi] at hsucceeds ⊢
    exact hm.covers_uses h (List.cons_ne_nil _ _) (uses_withYarn hkind hsucceeds) _

/-! ## Passes without yarn -/

omit [Scalar α] in
/-- A pass without yarn is scheduled as it is. -/
theorem submit_bare (m : Machine α) (kind : PassKind) (slot : Int) (op : SlotOp)
    (direction : Direction) (w : Option Warning) (events : List Event) :
    let s := m.submit (m.singlePass kind slot op direction []) w events
    s.outcome = .ok w ∧
      s.machine.schedule = (m.schedule.append (m.singlePass kind slot op direction [])).1 := by
  obtain ⟨r, hsubmit, hstep⟩ := submit_eq_of_validate
    (p := m.singlePass kind slot op direction []) (Pass.validate_bare rfl rfl rfl) m w events
  rw [hstep]
  exact ⟨rfl, Schedule.schedule_submit_bare rfl hsubmit⟩

/-- An instruction that makes one call without yarn warns if that is refused, and schedules the pass
that covers it if not. -/
theorem covers_call (h : m.schedule.Covers ops) {i : Instruction} {op : Operation} {slot : Int}
    {slotOp : SlotOp} (hcalls : (i.calls m.carriers).map (·.operation) = [op])
    (hop : op.DoneAt m.racking (slot, slotOp)) (kind : PassKind) (direction : Direction)
    (hi : (∃ w, m.fabric.outcome op = .error w ∧ m.execute i = m.skip w) ∨
      ∃ fabric events, m.fabric.outcome op = .ok events ∧ m.execute i =
        { m with fabric }.submit (m.singlePass kind slot slotOp direction []) none events) :
    (m.execute i).machine.schedule.Covers (ops ++ m.work (.execute i)) := by
  rcases hi with ⟨w, hrefused, hi⟩ | ⟨fabric, events, haccepted, hi⟩
  · have hwork : m.work (.execute i) = [] := by
      rw [work, stepOperations_of_ok (congrArg Step.outcome hi), hcalls, Fabric.accepted, hrefused]
      rfl
    rw [hwork, List.append_nil, hi]
    exact h
  · obtain ⟨hok, hschedule⟩ := submit_bare { m with fabric } kind slot slotOp direction none events
    have hwork : m.work (.execute i) = [op] := by
      rw [work, stepOperations_of_ok ((congrArg Step.outcome hi).trans hok), hcalls,
        Fabric.accepted, haccepted]
      rfl
    rw [hwork, hi]
    exact hschedule ▸ h.single hop ..

/-- A drop, or a tuck that only visits its needle. -/
theorem covers_stitchBare (h : m.schedule.Covers ops) {op : StitchOp} {direction : Direction}
    {n : Needle} {slot : Int} (hslot : n.slot? m.racking = some slot)
    (hi : m.execute (.stitch op direction n []) = m.stitchBare op n slot) :
    (m.execute (.stitch op direction n [])).machine.schedule.Covers
      (ops ++ m.work (.execute (.stitch op direction n []))) := by
  cases op with
  | miss => exact covers_of_error h (congrArg Step.outcome hi)
  | tuck =>
    obtain ⟨hok, hschedule⟩ := m.submit_bare .aMiss slot (slotOp .tuck n.bed.isFront) .undirected
      none []
    have hvisit : ¬(m.singlePass .aMiss slot (slotOp .tuck n.bed.isFront) .undirected []).IsBare :=
      fun hbare => hbare.2 rfl
    have hwork : m.work (.execute (.stitch .tuck direction n [])) = [] := by
      rw [work, stepOperations_of_ok ((congrArg Step.outcome hi).trans hok)]
      rfl
    rw [hwork, hi, stitchBare, hschedule]
    exact h.yarn hvisit []
  | knit =>
    refine covers_call h rfl (.drop hslot) .knitTuck .undirected ?_
    rw [hi, stitchBare, Fabric.outcome]
    cases m.fabric.drop n with
    | error w => exact .inl ⟨w, rfl, rfl⟩
    | ok dropped => exact .inr ⟨dropped.1, dropped.2, rfl, rfl⟩

/-- A transfer. -/
theorem covers_splitBare (h : m.schedule.Covers ops) {direction : Direction}
    {source target : Needle} {kind : PassKind} {slot : Int}
    (hplace : splitPlace source target m.racking false = .ok (kind, slot))
    (hi : m.execute (.split direction source target []) = m.splitBare source target
      (m.singlePass kind slot (splitOp source.bed.isFront false) direction [])) :
    (m.execute (.split direction source target [])).machine.schedule.Covers
      (ops ++ m.work (.execute (.split direction source target []))) := by
  obtain ⟨-, -, hsource, htarget⟩ := splitPlace_eq_ok_iff.1 hplace
  have hdone := Operation.DoneAt.transfer (Needle.slot?_of_slot hsource)
    (Needle.slot?_of_slot htarget) m.carriers.declared.length
  refine covers_call h rfl hdone kind direction ?_
  rw [hi, splitBare, Fabric.outcome]
  cases m.fabric.transfer source target m.carriers.declared.length with
  | error w => exact .inl ⟨w, rfl, rfl⟩
  | ok moved => exact .inr ⟨moved.1, moved.2, rfl, rfl⟩

/-! ## Steps -/

/-- An instruction that neither stitches nor moves loops. -/
theorem covers_of_idle (h : m.schedule.Covers ops) {i : Instruction}
    (hcalls : i.calls m.carriers = [])
    (hstitch : ∀ op direction n names, i ≠ .stitch op direction n names)
    (hsplit : ∀ direction source target names, i ≠ .split direction source target names) :
    (m.execute i).machine.schedule.Covers (ops ++ m.work (.execute i)) := by
  rcases ends_execute m i with ⟨e, t, herror, -, -⟩ | ⟨w, hok, heffect⟩
  · exact covers_of_error h herror
  have hwork : m.work (.execute i) = [] := by
    rw [work, stepOperations_of_ok hok, hcalls]
    rfl
  rw [hwork, List.append_nil]
  generalize (m.execute i).machine = m' at heffect
  cases heffect with
  | idle => exact h
  | bringIn => exact h
  | releaseHook =>
    obtain ⟨hclosed, hopen⟩ := m.schedule.release_withActions
    exact h.withActions hclosed hopen
  | takeOut =>
    obtain ⟨hclosed, hopen⟩ := m.schedule.takeOut_withActions _ _
    exact h.withActions hclosed hopen
  | rack => exact h
  | bare hi =>
    rcases hi with ⟨op, direction, n, rfl⟩ | ⟨direction, source, target, rfl⟩
    · exact absurd rfl (hstitch op direction n [])
    · exact absurd rfl (hsplit direction source target [])
  | yarn hi =>
    rcases hi with ⟨op, rfl⟩ | ⟨target, rfl⟩
    · exact absurd rfl (hstitch op _ _ _)
    · exact absurd rfl (hsplit _ _ target _)

theorem Reachable.covers_execute (hm : Reachable config allowed m) (h : m.schedule.Covers ops)
    (i : Instruction) :
    (m.execute i).machine.schedule.Covers (ops ++ m.work (.execute i)) := by
  cases i with
  | stitch op direction n names =>
    have hi := m.stitch_eq op direction n names
    cases hslot : stitchSlot n m.racking with
    | error e =>
      rw [hslot] at hi
      exact covers_of_error h (congrArg Step.outcome hi)
    | ok slot =>
      rw [hslot] at hi
      cases names with
      | nil =>
        have hplace : n.slot m.racking = .ok slot := by
          unfold stitchSlot at hslot
          split at hslot
          · simp at hslot
          · exact hslot
        exact covers_stitchBare h (Needle.slot?_of_slot hplace) hi
      | cons leader rest => exact hm.covers_withYarn h rfl hi
  | split direction source target names =>
    have hi := m.split_eq direction source target names
    cases hplace : splitPlace source target m.racking (!names.isEmpty) with
    | error e =>
      rw [hplace] at hi
      exact covers_of_error h (congrArg Step.outcome hi)
    | ok place =>
      obtain ⟨kind, slot⟩ := place
      rw [hplace] at hi
      cases names with
      | nil => exact covers_splitBare h hplace hi
      | cons leader rest => exact hm.covers_withYarn h (isTransfer_of_splitPlace hplace) hi
  | _ => exact covers_of_idle h rfl nofun nofun

theorem Reachable.covers_handle (hm : Reachable config (fun _ _ => True) m)
    (h : m.schedule.Covers ops) (r : Request) :
    Reachable config (fun _ _ => True) (m.handle r) ∧
      (m.handle r).schedule.Covers (ops ++ m.work r) := by
  cases r with
  | header names =>
    refine ⟨hm.header names, ?_⟩
    rw [work, List.append_nil]
    exact h
  | execute i => exact ⟨hm.execute trivial, hm.covers_execute h i⟩

/-- The passes of a session without yarn cover stretches of its calls. -/
theorem Reachable.covers_handleAll (hm : Reachable config (fun _ _ => True) m)
    (h : m.schedule.Covers ops) (rs : List Request) :
    (m.handleAll rs).schedule.Covers (ops ++ m.workAll rs) := by
  induction rs generalizing m ops with
  | nil =>
    rw [workAll, List.append_nil]
    exact h
  | cons r rs ih =>
    obtain ⟨hnext, hcovers⟩ := hm.covers_handle h r
    rw [workAll, ← List.append_assoc]
    exact ih hnext hcovers

/-- Transfers and drops no two of which have a needle in common leave the same fabric in every
order, and each of them reports what it would if it were the only one. And whatever happens in a
session, each pass without yarn does a stretch of its calls: put in the order of the slots of the
pass, these calls are just what it does there. Every other order of them ends in the same fabric and
reports the same. -/
theorem merged_in_any_order (config : Config α) :
    (∀ before calls calls' : List Operation, calls.Perm calls' →
      (∀ op ∈ calls, op.lane? = none) → calls.Pairwise Operation.Apart →
      let f := Fabric.run config.geometry before
      calls.foldl Fabric.apply f = calls'.foldl Fabric.apply f ∧
        f.outcomes calls' = calls'.map f.outcome) ∧
    ∀ (names : List String) (carriers : Carriers) (rs : List Request),
      Carriers.empty.declareAll names = .ok carriers →
      let start : Machine α := { initial config with carriers }
      let m := start.handleAll rs
      m.fabric = Fabric.run config.geometry (start.workAll rs) ∧
        ∀ p ∈ m.schedule.passes, p.IsBare → ∃ before block after,
          start.workAll rs = before ++ block ++ after ∧ block.Pairwise Operation.Apart ∧
          (p.slots.keys.Pairwise (· < ·) ∧
            ∃ sorted, sorted.Perm block ∧ DoneInTurn p.racking sorted p.slots.entries) ∧
          ∀ block', block'.Perm block →
            let f := Fabric.run config.geometry before
            Fabric.run config.geometry (before ++ block' ++ after) = m.fabric ∧
              f.outcomes block' = block'.map f.outcome := by
  refine ⟨fun before _ _ => (Fabric.wellFormed_run config.geometry before).reorder, ?_⟩
  intro names carriers rs hdeclared start m
  have hstart : Reachable config (fun _ _ => True) start := .start hdeclared
  have hfabric : m.fabric = Fabric.run config.geometry (start.workAll rs) :=
    start.fabric_handleAll rs
  refine ⟨hfabric, ?_⟩
  intro p hp hbare
  have hcovers : m.schedule.Covers (start.workAll rs) :=
    hstart.covers_handleAll Schedule.covers_empty rs
  obtain ⟨before, block, after, hwork, hblock⟩ := hcovers.passes hp hbare
  refine ⟨before, block, after, hwork, hblock.apart, ⟨p.slots.pairwise_keys,
    hblock.exists_sorted⟩, ?_⟩
  intro block' hperm f
  obtain ⟨hsame, hreports⟩ := (Fabric.wellFormed_run config.geometry before).reorder hperm.symm
    hblock.bare hblock.apart
  refine ⟨?_, hreports⟩
  rw [hfabric, hwork]
  simp only [Fabric.run, List.foldl_append]
  exact congrArg (after.foldl Fabric.apply) hsame.symm

/-- Loops of one carrier go to the other bed, those on the right first, and one pass does both. -/
theorem merged_from_right_to_left :
    let stitches : List Operation :=
      [.stitch true .right (.front 0) ⟨0, 1⟩, .stitch true .right (.front 2) ⟨0, 1⟩]
    let moves : List Operation :=
      [.transfer (.front 2) (.back 2) 1, .transfer (.front 0) (.back 0) 1]
    let rs : List Request := [.execute (.bringIn .plain ["A"]),
      .execute (.stitch .knit .right (.front 0) ["A"]),
      .execute (.stitch .knit .right (.front 2) ["A"]),
      .execute (.split .undirected (.front 2) (.back 2) []),
      .execute (.split .undirected (.front 0) (.back 0) [])]
    let start : Machine Float32 := { initial Config.standard with carriers := .empty }
    let f := Fabric.run start.config.geometry stitches
    (moves.foldl Fabric.apply f = moves.reverse.foldl Fabric.apply f ∧
        f.outcomes moves.reverse = moves.reverse.map f.outcome) ∧
      start.workAll rs = stitches ++ moves ∧
      ∃ p ∈ (start.handleAll rs).schedule.passes, p.IsBare ∧ p.slots.keys = [0, 2] ∧
        ∃ before block after, start.workAll rs = before ++ block ++ after ∧
          ∃ sorted, sorted.Perm block ∧ DoneInTurn p.racking sorted p.slots.entries := by
  intro stitches moves rs start f
  obtain ⟨horder, hsession⟩ := merged_in_any_order (Config.standard : Config Float32)
  obtain ⟨hsame, hreports⟩ := horder stitches moves moves.reverse moves.reverse_perm.symm
    (by decide) (by decide)
  refine ⟨⟨hsame, hreports⟩, by decide +kernel, ?_⟩
  obtain ⟨-, hpasses⟩ := hsession [] .empty rs rfl
  obtain ⟨p, hp, hbare, hslots⟩ : ∃ p ∈ (start.handleAll rs).schedule.passes,
      p.IsBare ∧ p.slots.keys = [0, 2] := by decide +kernel
  obtain ⟨before, block, after, hwork, -, ⟨-, hsorted⟩, -⟩ := hpasses p hp hbare
  exact ⟨p, hp, hbare, hslots, before, block, after, hwork, hsorted⟩

end Machine

end Knitting
