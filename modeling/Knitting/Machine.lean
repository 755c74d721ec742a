import Knitting.Carrier.Hook
import Knitting.Fabric
import Knitting.Instruction
import Knitting.Pass.Schedule

set_option autoImplicit false

/-! # The machine

The state of a run and what each instruction does to it. `Machine.execute` is total: it gives the
state after the instruction also when the instruction fails, because what was changed before the
failure stays changed. -/

namespace Knitting

/-- The state of a run. -/
structure Machine (α : Type) where
  config : Config α
  carriers : Carriers
  hook : Hook
  racking : Float
  fabric : Fabric α
  schedule : Schedule
  kicks : Nat

/-- The outcome of one instruction. -/
structure Step (α : Type) where
  machine : Machine α
  /-- Whether it failed, or else what it warned of. -/
  outcome : Except Error (Option Warning)
  events : List Event

namespace Machine

variable {α : Type}

def initial (config : Config α) : Machine α where
  config
  carriers := .empty
  hook := .empty
  racking := 0
  fabric := .empty config.geometry
  schedule := .empty
  kicks := 0

/-! ## Ways to end a step -/

def done (m : Machine α) (events : List Event) : Step α := ⟨m, .ok none, events⟩

def fail (m : Machine α) (e : Error) : Step α := ⟨m, .error e, []⟩

def skip (m : Machine α) (w : Warning) : Step α := ⟨m, .ok (some w), []⟩

/-! ## Carriers and the hook -/

/-- Brings a group of carriers in. The carriers are in even if the hook, which they need, turns out
to be busy. -/
def bringIn (m : Machine α) (kind : InKind) (names : List String) : Step α :=
  if names.isEmpty then m.fail (.noCarriers kind.op)
  else
    match m.carriers.bringIn kind names with
    | .error e => m.fail e
    | .ok carriers =>
      let m := { m with carriers }
      match kind with
      | .plain => m.done []
      | .hook =>
        -- A busy hook is an error, but the carriers are in by now.
        match m.hook.hold names with
        | .error e => m.fail e
        | .ok hook => { m with hook }.done []

def releaseHook (m : Machine α) (names : List String) : Step α :=
  match m.hook.release names with
  | .error e => m.fail e
  | .ok hook =>
    let (schedule, events) := m.schedule.release
    { m with hook, schedule }.done events

/-- The first reason why one of a group of carriers cannot be taken out. -/
def outRefusal? (carriers : Carriers) (names : List String) : Option Error :=
  names.findSome? fun name =>
    match carriers.get? name with
    | none => some (.inactiveCarrier name)
    | some c => if c.last.isNone then some (.neverStitched name) else none

def takeOut (m : Machine α) (withHook : Bool) (names : List String) : Step α :=
  if names.isEmpty then m.fail (.noCarriers (if withHook then "outhook" else "out"))
  else
    match outRefusal? m.carriers names with
    | some e => m.fail e
    | none =>
      match withHook, m.hook.held with
      | true, some held => m.fail (.hookBusy names held)
      | _, _ =>
        let (schedule, events) := m.schedule.takeOut names withHook
        { m with schedule, carriers := m.carriers.removeAll names }.done events

/-- Lets none of a group of carriers wait for its first stitch any more. Gives the bring-in that the
last of them waited for, of those that did. -/
def takePending (carriers : Carriers) (names : List String) : Carriers × Option PendingIn :=
  names.foldl (fun (t, pending) name =>
    match (t.get? name).bind (·.pending) with
    | none => (t, pending)
    | some p => (t.update name fun c => { c with pending := none }, some p)) (carriers, none)

/-- Uses a group of carriers in a pass: all must be in, and if any of them waits for its first
stitch then the group must be exactly the one that was brought in, which the pass then starts with.
The carriers are no longer waiting even if it is not. -/
def use (carriers : Carriers) (names : List String) (p : Pass) : Carriers × Except Error Pass :=
  match names.find? fun name => !carriers.isActive name with
  | some name => (carriers, .error (.inactiveCarrier name))
  | none =>
    match takePending carriers names with
    | (cleared, none) => (cleared, .ok p)
    | (cleared, some pending) =>
      if pending.carriers ≠ names then
        (cleared, .error (.firstUseMismatch names pending.carriers))
      else
        let hook := match pending.kind with
          | .plain => p.hook
          | .hook => some .bringIn
        (cleared, .ok { p with gripper := some .bringIn, hook })

def park (m : Machine α) (names : List String) (direction : Direction) (n : Needle) : Machine α :=
  { m with carriers := m.carriers.park names ⟨n, direction, m.config.stoppingDistance⟩ }

/-! ## Stitches -/

/-- Schedules a pass as the end of an instruction that may have warned. -/
def submit (m : Machine α) (p : Pass) (warning : Option Warning) (events : List Event) : Step α :=
  match m.schedule.submit m.carriers m.racking p with
  | .error e => ⟨m, .error e, events⟩
  | .ok s =>
    ⟨{ m with schedule := s.schedule, carriers := s.carriers, kicks := m.kicks + s.kicks },
      .ok warning, events ++ s.events⟩

def slotOp (op : StitchOp) (isFront : Bool) : SlotOp :=
  match op, isFront with
  | .knit, true => .knitFront
  | .knit, false => .knitBack
  | .tuck, true => .tuckFront
  | .tuck, false => .tuckBack
  | .miss, true => .missFront
  | .miss, false => .missBack

/-- A pass with the racking and stitch setting of the machine. -/
def singlePass (m : Machine α) (kind : PassKind) (slot : Int) (op : SlotOp) (direction : Direction)
    (names : List String) : Pass :=
  Pass.single kind slot op m.racking m.config.stitchNumber direction names

variable [Scalar α]

/-- A stitch without carriers: a knit drops the loops of its needle, a tuck only visits it. -/
def stitchBare (m : Machine α) (op : StitchOp) (n : Needle) (slot : Int) : Step α :=
  match op with
  | .miss => m.fail .missWithoutCarriers
  | .tuck => m.submit (m.singlePass .aMiss slot (slotOp .tuck n.bed.isFront) .undirected []) none []
  | .knit =>
    match m.fabric.drop n with
    | .error w => m.skip w
    | .ok (fabric, events) =>
      { m with fabric }.submit
        (m.singlePass .knitTuck slot (slotOp .knit n.bed.isFront) .undirected []) none events

/-- The fabric after a stitch on the lane of its first carrier. -/
def stitchFabric (f : Fabric α) (op : StitchOp) (direction : Direction) (n : Needle) (lane : Lane) :
    Fabric α :=
  match op with
  | .knit => (f.knit direction n lane).1
  | .tuck => (f.tuck direction n lane).1
  | .miss => f

def stitch (m : Machine α) (op : StitchOp) (direction : Direction) (n : Needle)
    (names : List String) : Step α :=
  if n.bed.isSlider then m.fail (.stitchOnSlider n)
  else
    match n.slot m.racking with
    | .error e => m.fail e
    | .ok slot =>
      match names with
      | [] => m.stitchBare op n slot
      | leader :: _ =>
        let p := m.singlePass .knitTuck slot (slotOp op n.bed.isFront) direction names
        match use m.carriers names p with
        | (carriers, .error e) => { m with carriers }.fail e
        | (carriers, .ok p) =>
          let m := { m with carriers }
          -- A group lies in the lane of its first carrier.
          match carriers.lane? leader with
          | none => m.fail (.inactiveCarrier leader)
          | some lane =>
            let m := { m with fabric := stitchFabric m.fabric op direction n lane }
            (m.park names direction n).submit p none []

/-! ## Splits and transfers -/

/-- The kind of pass for moving loops from one needle to another, with or without yarn, or why there
is none. -/
def splitKind (source target : Needle) (withYarn : Bool) : Except Error PassKind :=
  match source.bed.isSlider, target.bed.isSlider, withYarn with
  | true, true, _ => .error (.sliderToSlider source target)
  | true, false, true => .error (.splitFromSlider source)
  | true, false, false => .ok .xferFromSliders
  | false, true, false => .ok .xferToSliders
  | false, true, true => .ok .splitViaSliders
  | false, false, false => .ok .xfer
  | false, false, true => .ok .split

def splitOp (isFront withYarn : Bool) : SlotOp :=
  match isFront, withYarn with
  | true, false => .xferToBack
  | false, false => .xferToFront
  | true, true => .splitToBack
  | false, true => .splitToFront

/-- The kind and slot of a move of loops under a racking: the needles must be on opposite sides and
at the same slot. -/
def splitPlace (source target : Needle) (racking : Float) (withYarn : Bool) :
    Except Error (PassKind × Int) := do
  let kind ← splitKind source target withYarn
  if source.bed.side = target.bed.side then throw (.sameSideTransfer source target)
  let slot ← source.slot racking
  let facing ← target.slot racking
  if slot ≠ facing then throw (.misaligned source target racking)
  return (kind, slot)

/-- A split, or without carriers a transfer. A split from an empty needle warns, but still knits. -/
def split (m : Machine α) (direction : Direction) (source target : Needle) (names : List String) :
    Step α :=
  match splitPlace source target m.racking (!names.isEmpty) with
  | .error e => m.fail e
  | .ok (kind, slot) =>
    let p := m.singlePass kind slot (splitOp source.bed.isFront (!names.isEmpty)) direction names
    match names with
    | [] =>
      match m.fabric.transfer source target m.carriers.declared.length with
      | .error w => m.skip w
      | .ok (fabric, events) => { m with fabric }.submit p none events
    | leader :: _ =>
      match use m.carriers names p with
      | (carriers, .error e) => { m with carriers }.fail e
      | (carriers, .ok p) =>
        let m := { m with carriers }
        match carriers.lane? leader with
        | none => m.fail (.inactiveCarrier leader)
        | some lane =>
          let (fabric, warning, events) :=
            match m.fabric.transfer source target lane.count with
            | .error w => (m.fabric, some w, [])
            | .ok (fabric, events) => (fabric, none, events)
          let m := { m with fabric := (fabric.knit direction source lane).1 }
          (m.park names direction source).submit p warning events

/-! ## Instructions -/

def execute (m : Machine α) : Instruction → Step α
  | .bringIn kind names => m.bringIn kind names
  | .releaseHook names => m.releaseHook names
  | .takeOut withHook names => m.takeOut withHook names
  | .stitch op direction n names => m.stitch op direction n names
  | .split direction source target names => m.split direction source target names
  | .rack racking => { m with racking }.done []
  | .pause => m.done []
  | .extension op => m.skip (.extensionOperation op)
  | .unsupported op => m.skip (.unsupportedOperation op)

end Machine

end Knitting
