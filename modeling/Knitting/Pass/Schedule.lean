import Knitting.Carrier.Table
import Knitting.Event
import Knitting.Pass.Basic

set_option autoImplicit false

/-! # Scheduling passes

The schedule is the list of finished passes and the pass that is still open. A new pass joins the
open one if one sweep can do both (`Schedule.append`). Before a pass that carries yarn, every other
carrier parked where the carriage will come to rest is kicked out of the way by a pass of its own,
which may have to kick further carriers first (`Submission.resolve`). A carrier is kicked at most
once for a pass, so a cascade of kicks is no deeper than the number of active carriers. -/

namespace Knitting

/-- The passes of a run so far. -/
structure Schedule where
  /-- The passes that nothing can join any more, in order. -/
  closed : List Pass
  /-- The last pass, which the next may join. -/
  openPass : Option Pass

namespace Schedule

def empty : Schedule := ⟨[], none⟩

instance : Inhabited Schedule := ⟨empty⟩

/-- All passes in order. -/
def passes (s : Schedule) : List Pass := s.closed ++ s.openPass.toList

/-- Joins a pass to the open one, or closes that one and opens `p`. -/
def append (s : Schedule) (p : Pass) : Schedule × List Event :=
  match s.openPass with
  | none => ({ s with openPass := some p }, [])
  | some last =>
    match last.absorb? p with
    | some joined => ({ s with openPass := some joined }, [.merged p.slots.keys])
    | none => (⟨s.closed ++ [last], some p⟩, [])

/-- Ties taking carriers out to the open pass, if it is theirs and free for it. -/
def takeOut (s : Schedule) (names : List String) (withHook : Bool) : Schedule × List Event :=
  match s.openPass with
  | none => (s, [])
  | some p =>
    if p.carriers ≠ names || p.gripper.isSome || (withHook && p.hook.isSome) then
      (s, [.outUnattached names])
    else
      let hook := if withHook then some .takeOut else p.hook
      ({ s with openPass := some { p with gripper := some .takeOut, hook } }, [])

/-- Ties letting go of the hook to the open pass, if it carries yarn and the hook is not at work
for it. -/
def release (s : Schedule) : Schedule × List Event :=
  match s.openPass with
  | none => (s, [.releaseUnattached])
  | some p =>
    if p.hook.isNone && !p.carriers.isEmpty then
      ({ s with openPass := some { p with hook := some .release } }, [])
    else (s, [.releaseUnattached])

end Schedule

/-! ## Landing zones -/

/-- Whether a carriage that sweeps past slot `s` in a direction comes to rest on a carrier parked
at `parked` that needs `reach` slots of clearance. -/
def inLandingZone (direction : Direction) (s parked reach : Float) : Bool :=
  match direction with
  | .right => s < parked && parked ≤ s + reach
  | .left => parked < s && s - reach ≤ parked
  | .undirected => false

/-- The pass that moves a carrier out of the way of `p` at its slot: a miss back across it. -/
def Pass.kickFor (p : Pass) (slot : Int) (name : String) : Pass :=
  { Pass.single .knitTuck slot .missFront p.racking p.stitch p.direction.opposite [name] with
    kick := true }

/-- A carrier that is in the way of a pass. -/
structure Blocker where
  name : String
  parked : Float
  /-- The slot that it is too near to. -/
  slot : Int

/-- The carriers in the way of a pass, in the order of their lanes, leaving out those in `settled`.
Only a pass that works at a single slot, with yarn and in a direction, can find any. -/
def Pass.blockers (p : Pass) (carriers : Carriers) (racking : Float) (settled : List String) :
    List Blocker :=
  match p.onlySlot? with
  | none => []
  | some slot =>
    if p.carriers.isEmpty then []
    else
      (carriers.active.filter fun c => !settled.contains c.name).filterMap fun c => do
        let last ← c.last
        let parked := last.parkedSlot racking
        let reach := Float.ofInt last.stoppingDistance
        if inLandingZone p.direction (Float.ofInt slot) parked reach then
          some ⟨c.name, parked, slot⟩
        else none

/-- A carrier parked by a kick at the front needle of a slot, as seen from the kick's direction. -/
def Carrier.kickedTo (c : Carrier) (slot : Int) (direction : Direction) : Carrier :=
  { c with last := c.last.map fun last => ⟨.front slot, direction, last.stoppingDistance⟩ }

/-- The carriers after a kick, which parks each of its own. -/
def Carriers.afterKick (t : Carriers) (kick : Pass) : Carriers :=
  match kick.onlySlot? with
  | none => t
  | some slot =>
    kick.carriers.foldl (fun t name => t.update name fun c => c.kickedTo slot kick.direction) t

/-! ## Submitting -/

/-- What changes while a pass is scheduled. -/
structure Submission where
  schedule : Schedule
  /-- The carriers as the passes so far leave them. -/
  carriers : Carriers
  /-- The carriers that are not to be kicked any more. -/
  settled : List String
  kicks : Nat
  events : List Event

namespace Submission

/-- Carries a pass out: a kick first moves its carriers. -/
def emit (s : Submission) (p : Pass) : Submission :=
  let (schedule, events) := s.schedule.append p
  { s with
    schedule
    carriers := if p.kick then s.carriers.afterKick p else s.carriers
    kicks := if p.kick then s.kicks + 1 else s.kicks
    events := s.events ++ events }

/-- Settles the carriers that are in the way of a pass. -/
def settle (s : Submission) (blockers : List Blocker) : Submission :=
  { s with
    settled := s.settled ++ blockers.map (·.name)
    events := s.events ++ blockers.map fun b => .kicked b.name b.parked b.slot }

/-- Kicks what is in the way of a pass and carries the pass out. Every carrier in the way is
settled before the first of them is kicked, and each kick is resolved in the same manner; `depth`
bounds how often that can happen inside each other. -/
def resolve (racking : Float) : Nat → Submission → Pass → Submission
  | 0, s, p => s.emit p
  | depth + 1, s, p =>
    let blockers := p.blockers s.carriers racking s.settled
    -- None of them is looked at again, not even if a later kick puts it in the way.
    let s := blockers.foldl (fun s b => resolve racking depth s (p.kickFor b.slot b.name))
      (s.settle blockers)
    s.emit p

end Submission

/-- Schedules a pass at a racking after the kicks that it needs. The pass's own carriers are never
kicked. -/
def Schedule.submit (s : Schedule) (carriers : Carriers) (racking : Float) (p : Pass) :
    Except Error Submission :=
  match p.validate with
  | .error e => .error e
  | .ok () =>
    .ok (Submission.resolve racking (carriers.members.length + 1) ⟨s, carriers, p.carriers, 0, []⟩
      p)

end Knitting
