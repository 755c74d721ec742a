import Knitting.Proofs.Bounds.Fabric
import Knitting.Proofs.Bounds.Schedule
import Knitting.Proofs.Machine.Failure
import Knitting.Proofs.Machine.Kicks
import Knitting.Proofs.Machine.Legal

set_option autoImplicit false

/-! # Attempts at instructions

An instruction shifts needles to slots, declares carriers, works on the fabric in the lane of a
group's first carrier and adds to the count of kicks. Slots are reckoned in long numbers, which the
shift of a racking is forced into (`Needle.longSlot_eq`). The kicks are no more than the passes, for
they are among them, and those for one pass no more than the carriers. So an instruction of a
reachable machine comes to what it should, unless memory gives out (`Machine.comes_tryExecute`). -/

namespace Knitting

/-! ## Slots -/

def minLong : Int := -2 ^ 63

def maxLong : Int := 2 ^ 63 - 1

/-- The shift of a racking as a long number: the nearest one if it is beyond them, and none for what
is not a number. -/
def Racking.longShift (racking : Float) : Int :=
  match Number.Value.ofFloat racking with
  | .nan => 0
  | .infinite negative => if negative then minLong else maxLong
  | v => max minLong (min maxLong (v.floor?.getD 0))

namespace Needle

/-- The slot of a needle, reckoned in long numbers: there is none if the sum is no long number, and
none if it is one but no slot. -/
def longSlot? (n : Needle) (racking : Float) : Option Int :=
  match n.bed.side with
  | .front => some n.index
  | .back =>
    ((some (n.index + Racking.longShift racking)).filter fun s =>
      minLong ≤ s && s ≤ maxLong).filter isIndex

def longSlot (n : Needle) (racking : Float) : Except Error Int :=
  match n.longSlot? racking with
  | some s => .ok s
  | none => .error (.slotOutOfRange n racking)

/-- A shift that has to be forced into the long numbers is beyond every slot. -/
theorem filter_forced {i : Int} (hi : isIndex i = true) (shift : Int) :
    ((some (i + max minLong (min maxLong shift))).filter fun s =>
      minLong ≤ s && s ≤ maxLong).filter isIndex = (some (i + shift)).filter isIndex := by
  rw [isIndex_iff] at hi
  rw [Option.filter_filter, minLong, maxLong]
  by_cases hslot : isIndex (i + shift) = true
  · have hforced : max (-2 ^ 63) (min (2 ^ 63 - 1) shift) = shift := by
      rw [isIndex_iff] at hslot
      omega
    rw [hforced, Option.filter_some, Option.filter_some, if_pos hslot, if_pos]
    rw [hslot, Bool.and_true]
    rw [isIndex_iff] at hslot
    simp only [Bool.and_eq_true, decide_eq_true_eq]
    omega
  · rw [Option.filter_some, Option.filter_some, if_neg hslot, if_neg]
    rw [isIndex_iff] at hslot
    simp only [Bool.and_eq_true, decide_eq_true_eq, isIndex_iff]
    omega

theorem longSlot_eq {n : Needle} (hn : isIndex n.index = true) (racking : Float) :
    n.longSlot racking = n.slot racking := by
  have hslot : n.longSlot? racking = n.slot? racking := by
    unfold longSlot? slot? Racking.longShift Racking.shift?
    cases n.bed.side with
    | front => rfl
    | back =>
      cases Number.Value.ofFloat racking with
      | nan => exact filter_forced hn 0
      | infinite negative =>
        -- Every slot is as far off as the least or greatest long number.
        rw [isIndex_iff] at hn
        dsimp only
        rw [Option.filter_filter, Option.filter_some, if_neg]
        · rfl
        · simp only [Bool.and_eq_true, isIndex_iff, minLong, maxLong]
          split <;> omega
      | zero negative => exact filter_forced hn 0
      | finite negative magnitude => exact filter_forced hn (magnitude.floor negative)
  unfold longSlot slot
  exact hslot ▸ rfl

end Needle

/-! ## Carriers -/

namespace Carriers

variable {room : Nat} {t : Carriers}

/-- Declares a carrier and finds its lane, unless it is declared already. -/
def tryDeclare (room : Nat) (t : Carriers) (name : String) : Attempt (Except Error Carriers) :=
  if t.declared.contains name then return .ok t
  else if t.fromHeader then return .error (.undeclaredCarrier name)
  else do
    let declared ← Attempt.push room t.declared name
    let _ ← Attempt.less declared.length 1
    return .ok { t with declared }

/-- Whatever carriers come of it, there is room for the declared ones. -/
def LeavesRoom (room : Nat) (outcome : Except Error Carriers) : Prop :=
  ∀ t, outcome = .ok t → t.declared.length ≤ room

theorem leavesRoom_error (room : Nat) (e : Error) : LeavesRoom room (.error e) := by
  intro t h
  simp at h

theorem leavesRoom_ok (ht : t.declared.length ≤ room) : LeavesRoom room (.ok t) := by
  rintro _ ⟨⟩
  exact ht

theorem comes_tryDeclare (t : Carriers) (name : String) :
    Attempt.Comes (fun room => t.declared.length ≤ room) (fun room => t.tryDeclare room name)
      (t.declare name) (fun room => LeavesRoom room (t.declare name)) := by
  unfold tryDeclare declare
  by_cases hknown : t.declared.contains name = true
  · simp only [if_pos hknown]
    exact Attempt.comes_ok fun _ => leavesRoom_ok
  simp only [if_neg hknown]
  by_cases hheader : t.fromHeader = true
  · simp only [if_pos hheader]
    exact Attempt.comes_ok fun room _ => leavesRoom_error room _
  simp only [if_neg hheader]
  refine (Attempt.comes_push t.declared name).bind ?_
  refine Attempt.Comes.after ?_ fun room _ => Attempt.less_eq_ok (by simp)
  exact Attempt.comes_ok fun room h => leavesRoom_ok h.2

def tryDeclareAll (room : Nat) (t : Carriers) : List String → Attempt (Except Error Carriers)
  | [] => return .ok t
  | name :: names => do
    match ← t.tryDeclare room name with
    | .ok t => t.tryDeclareAll room names
    | .error e => return .error e

theorem comes_tryDeclareAll (t : Carriers) (names : List String) :
    Attempt.Comes (fun room => t.declared.length ≤ room) (fun room => t.tryDeclareAll room names)
      (t.declareAll names) (fun room => LeavesRoom room (t.declareAll names)) := by
  induction names generalizing t with
  | nil => exact Attempt.comes_ok fun _ => leavesRoom_ok
  | cons name names ih =>
    unfold tryDeclareAll declareAll
    refine (comes_tryDeclare t name).bind ?_
    cases t.declare name with
    | error e => exact Attempt.comes_ok fun room _ => leavesRoom_error room e
    | ok t' => exact (ih t').of fun room h => h.2 t' rfl

def tryBringIn (room : Nat) (t : Carriers) (kind : InKind) (names : List String) :
    Attempt (Except Error Carriers) :=
  match names.find? t.isActive with
  | some name => return .error (.alreadyActive name)
  | none => do
    match ← t.tryDeclareAll room names with
    | .error e => return .error e
    | .ok t => return .ok (names.foldl (fun t name => t.put ⟨name, none, some ⟨kind, names⟩⟩) t)

theorem comes_tryBringIn (t : Carriers) (kind : InKind) (names : List String) :
    Attempt.Comes (fun room => t.declared.length ≤ room) (fun room => t.tryBringIn room kind names)
      (t.bringIn kind names) (fun room => LeavesRoom room (t.bringIn kind names)) := by
  unfold tryBringIn bringIn
  cases names.find? t.isActive with
  | some name => exact Attempt.comes_ok fun room _ => leavesRoom_error room _
  | none =>
    refine (comes_tryDeclareAll t names).bind ?_
    cases t.declareAll names with
    | error e => exact Attempt.comes_ok fun room _ => leavesRoom_error room e
    | ok t' =>
      refine Attempt.comes_ok ?_
      rintro room ⟨-, hroom⟩
      refine leavesRoom_ok ?_
      rw [(foldl_put names names kind t').1.1]
      exact hroom t' rfl

def tryDeclareHeader (room : Nat) (t : Carriers) (names : List String) :
    Attempt (Carriers × Option Warning) :=
  if t.fromHeader then return (t, some .repeatedCarrierHeader)
  else do
    let declared ← Attempt.store room (appendNew names t.declared)
    return ({ t with declared, fromHeader := true }, none)

theorem comes_tryDeclareHeader (t : Carriers) (names : List String) :
    Attempt.Comes (fun room => t.declared.length ≤ room) (fun room => t.tryDeclareHeader room names)
      (t.declareHeader names) (fun room => (t.declareHeader names).1.declared.length ≤ room) := by
  unfold tryDeclareHeader declareHeader
  cases t.fromHeader with
  | true => exact Attempt.comes_ok fun _ => id
  | false => exact (Attempt.comes_store _).bind (Attempt.comes_ok fun _ => And.right)

/-- A lane is one of those that there is room for. -/
theorem lane_within (ht : t.declared.length ≤ room) {name : String} {lane : Lane}
    (hlane : t.lane? name = some lane) : lane.Within room := by
  obtain ⟨i, hi, rfl⟩ := Option.map_eq_some_iff.1 hlane
  obtain ⟨hlt, -⟩ := List.idxOf?_eq_some_iff.1 hi
  exact ⟨hlt, ht⟩

/-- The active carriers are told apart by their names and declared. -/
theorem length_members_le (hnames : (t.members.map (·.name)).Nodup) (hdeclared : t.AllDeclared) :
    t.members.length ≤ t.declared.length := by
  have hsub : t.members.map (·.name) ⊆ t.declared := by
    intro name hname
    obtain ⟨c, hc, rfl⟩ := List.mem_map.1 hname
    exact hdeclared c.name (by
      rw [isActive, get?, List.find?_isSome]
      exact ⟨c, hc, decide_eq_true rfl⟩)
  simpa using (hnames.subperm hsub).length_le

end Carriers

/-! ## Machines -/

namespace Machine

variable {α : Type} {room : Nat} {m : Machine α}

/-- A machine with no more of anything than there is room for. -/
structure Within (room : Nat) (m : Machine α) : Prop where
  fabric : m.fabric.Within room
  declared : m.carriers.declared.length ≤ room
  closed : m.schedule.closed.length ≤ room

/-- A machine that has counted its kicks and tells its carriers apart, of which no more are active
than declared. -/
structure Ready (m : Machine α) : Prop where
  kicks : m.CountsKicks
  names : (m.carriers.members.map (·.name)).Nodup
  active : m.carriers.members.length ≤ m.carriers.declared.length

/-- What is not counted makes no difference, and of the carriers only their names do. -/
theorem Ready.congr (hm : m.Ready) {m' : Machine α} (hschedule : m'.schedule = m.schedule)
    (hkicks : m'.kicks = m.kicks)
    (hnames : m'.carriers.members.map (·.name) = m.carriers.members.map (·.name))
    (hdeclared : m'.carriers.declared = m.carriers.declared) : m'.Ready := by
  refine ⟨hm.kicks.congr hschedule hkicks, hnames ▸ hm.names, ?_⟩
  have hlength := congrArg List.length hnames
  rw [List.length_map, List.length_map] at hlength
  rw [hlength, hdeclared]
  exact hm.active

/-! ### Passes -/

def trySubmit (room : Nat) (m : Machine α) (p : Pass) (warning : Option Warning)
    (events : List Event) : Attempt (Step α) := do
  match ← m.schedule.trySubmit room m.carriers m.racking p with
  | .error e => return ⟨m, .error e, events⟩
  | .ok s =>
    let kicks ← Attempt.count room (m.kicks + s.kicks)
    return ⟨{ m with schedule := s.schedule, carriers := s.carriers, kicks }, .ok warning,
      events ++ s.events⟩

theorem comes_trySubmit (hm : m.Ready) {p : Pass} (hp : p.kick = false)
    (warning : Option Warning) (events : List Event) :
    Attempt.Comes m.Within (fun room => m.trySubmit room p warning events)
      (m.submit p warning events) (m.submit p warning events).machine.Within := by
  have hcascade : ∀ r, m.schedule.submit m.carriers m.racking p = .ok r →
      ∃ kicks, m.schedule.Cascade m.carriers m.racking p kicks r := by
    intro r hr
    obtain ⟨kicks, r', hr', hcascade, -⟩ := Schedule.exists_cascade hm.kicks.plain hm.names hp
      (Schedule.validate_of_submit hr) m.racking
    obtain rfl := Except.ok.inj (hr.symm.trans hr')
    exact ⟨kicks, hcascade⟩
  have hkicks : ∀ room, m.Within room → ∀ r, m.schedule.submit m.carriers m.racking p = .ok r →
      r.kicks ≤ 2 * room + 1 := by
    intro room hroom r hr
    obtain ⟨kicks, hcascade⟩ := hcascade r hr
    -- A carrier is kicked once at most.
    have hbound := hcascade.bound.trans List.countP_le_length
    have hactive := hm.active.trans hroom.declared
    rw [hcascade.count]
    omega
  unfold trySubmit submit
  refine ((Schedule.comes_trySubmit m.schedule m.carriers m.racking p).of fun room h =>
    ⟨h.closed, hkicks room h⟩).bind ?_
  cases hr : m.schedule.submit m.carriers m.racking p with
  | error e => exact Attempt.comes_ok fun _ => And.left
  | ok r =>
    obtain ⟨kicks, hcascade⟩ := hcascade r hr
    obtain ⟨hplain, hcount⟩ := hcascade.plain hm.kicks.plain hp
    dsimp only
    refine Attempt.Comes.after (v := m.kicks + r.kicks) ?_ ?_
    · refine Attempt.comes_ok ?_
      rintro room ⟨hroom, hclosed⟩
      refine ⟨hroom.fabric, ?_, hclosed r rfl⟩
      rw [hcascade.declared.1]
      exact hroom.declared
    · rintro room ⟨-, hclosed⟩
      -- All kicks so far are among the closed passes.
      have hclosed : r.schedule.closed.length ≤ room := hclosed r rfl
      have hpasses := List.countP_le_length (p := fun q : Pass => q.kick) (l := r.schedule.closed)
      refine Attempt.count_eq_ok ?_
      rw [hm.kicks.count, ← hcount, Schedule.kickCount_eq hplain]
      omega

theorem kick_singlePass (m : Machine α) (kind : PassKind) (slot : Int) (op : SlotOp)
    (direction : Direction) (names : List String) :
    (m.singlePass kind slot op direction names).kick = false := rfl

/-! ### Groups at work -/

def tryWithYarn (room : Nat) (m : Machine α) (names : List String) (direction : Direction)
    (n : Needle) (p : Pass)
    (work : Fabric α → Lane → Attempt (Fabric α × Option Warning × List Event)) :
    Attempt (Step α) :=
  match use m.carriers names p with
  | (carriers, .error e) => return { m with carriers }.fail e
  | (carriers, .ok p) => do
    let leader ← Attempt.entry names 0
    match carriers.lane? leader with
    | none => return { m with carriers }.fail (.inactiveCarrier leader)
    | some lane =>
      let (fabric, warning, events) ← work m.fabric lane
      ({ m with carriers, fabric }.park names direction n).trySubmit room p warning events

theorem comes_tryWithYarn (hm : m.Ready) {leader : String} {rest : List String}
    {direction : Direction} {n : Needle} {p : Pass} (hp : p.kick = false)
    {tryWork : Nat → Fabric α → Lane → Attempt (Fabric α × Option Warning × List Event)}
    {work : Fabric α → Lane → Fabric α × Option Warning × List Event}
    (hwork : ∀ lane, Attempt.Comes (fun room => m.fabric.Reaches room lane)
      (fun room => tryWork room m.fabric lane) (work m.fabric lane)
      (work m.fabric lane).1.Within) :
    Attempt.Comes m.Within
      (fun room => m.tryWithYarn room (leader :: rest) direction n p (tryWork room))
      (m.withYarn leader (leader :: rest) direction n p work)
      (m.withYarn leader (leader :: rest) direction n p work).machine.Within := by
  have hdeclared : ∀ t : Carriers,
      t = m.carriers ∨ t = (takePending m.carriers (leader :: rest)).1 →
      t.declared = m.carriers.declared := by
    rintro t (rfl | rfl)
    · rfl
    · exact (takePending_declared _ _).1
  unfold tryWithYarn withYarn
  cases huse : use m.carriers (leader :: rest) p with
  | mk carriers used =>
    cases used with
    | error e =>
      have hdeclared : carriers.declared = m.carriers.declared := by
        rcases use_eq_error huse with ⟨-, -, h⟩ | ⟨-, -, h⟩
        · exact hdeclared _ (.inl h)
        · exact hdeclared _ (.inr h)
      exact Attempt.comes_ok fun room h => ⟨h.fabric, hdeclared ▸ h.declared, h.closed⟩
    | ok p' =>
      obtain ⟨-, rfl, hp'⟩ := use_eq_ok_iff.1 huse
      have hdeclared := hdeclared _ (.inr rfl)
      have hkick : p'.kick = false := by
        rcases hp' with ⟨-, rfl⟩ | ⟨pending, -, -, rfl⟩ <;> exact hp
      dsimp only
      refine Attempt.Comes.after (v := leader) ?_ fun room _ => rfl
      cases hlane : (takePending m.carriers (leader :: rest)).1.lane? leader with
      | none =>
        exact Attempt.comes_ok fun room h => ⟨h.fabric, hdeclared ▸ h.declared, h.closed⟩
      | some lane =>
        refine ((hwork lane).of fun room h => ⟨h.fabric, ?_⟩).bind ?_
        · exact Carriers.lane_within (hdeclared ▸ h.declared) hlane
        let m' : Machine α := { m with
          carriers := (takePending m.carriers (leader :: rest)).1
          fabric := (work m.fabric lane).1 }
        have hparked : (m'.park (leader :: rest) direction n).carriers.declared =
            m.carriers.declared := by
          simp only [park]
          rw [Carriers.park_eq_mapMembers, Carriers.declared_mapMembers]
          exact hdeclared
        have hready : (m'.park (leader :: rest) direction n).Ready := by
          refine hm.congr rfl rfl ?_ hparked
          simp only [park, m']
          rw [Carriers.names_park, names_takePending]
        refine (comes_trySubmit hready hkick _ _).of ?_
        rintro room ⟨h, hfabric⟩
        exact ⟨hfabric, hparked ▸ h.declared, h.closed⟩

/-! ### Stitches and splits -/

/-- Work on the fabric makes no difference to what is counted. -/
theorem Ready.withFabric (hm : m.Ready) (f : Fabric α) :
    ({ m with fabric := f } : Machine α).Ready :=
  hm.congr rfl rfl rfl rfl

theorem Within.withFabric {room : Nat} (hm : m.Within room) {f : Fabric α} (hf : f.Within room) :
    ({ m with fabric := f } : Machine α).Within room :=
  ⟨hf, hm.declared, hm.closed⟩

def tryStitchBare (room : Nat) (m : Machine α) (op : StitchOp) (n : Needle) (slot : Int) :
    Attempt (Step α) :=
  match op with
  | .miss => return m.fail .missWithoutCarriers
  | .tuck =>
    m.trySubmit room (m.singlePass .aMiss slot (slotOp .tuck n.bed.isFront) .undirected []) none []
  | .knit =>
    match m.fabric.drop n with
    | .error w => return m.skip w
    | .ok (fabric, events) =>
      { m with fabric }.trySubmit room
        (m.singlePass .knitTuck slot (slotOp .knit n.bed.isFront) .undirected []) none events

theorem comes_tryStitchBare (hm : m.Ready) (op : StitchOp) (n : Needle) (slot : Int) :
    Attempt.Comes m.Within (fun room => m.tryStitchBare room op n slot) (m.stitchBare op n slot)
      (m.stitchBare op n slot).machine.Within := by
  unfold tryStitchBare stitchBare
  cases op with
  | miss => exact Attempt.comes_ok fun _ => id
  | tuck => exact comes_trySubmit hm (kick_singlePass ..) none []
  | knit =>
    unfold Fabric.drop
    cases m.fabric.heldAt n with
    | nil => exact Attempt.comes_ok fun _ => id
    | cons held rest =>
      have hcleared : ∀ room, m.fabric.Within room → (m.fabric.clearHeld n).Within room :=
        fun _ => id
      refine (comes_trySubmit (hm.withFabric _) (kick_singlePass ..) none _).of ?_
      exact fun room h => h.withFabric (hcleared room h.fabric)

variable [Scalar α]

def tryStitchFabric (room : Nat) (f : Fabric α) (op : StitchOp) (direction : Direction)
    (n : Needle) (lane : Lane) : Attempt (Fabric α) :=
  match op with
  | .knit => return (← f.tryKnit room direction n lane).1
  | .tuck => return (← f.tryTuck room direction n lane).1
  | .miss => return f

theorem comes_tryStitchFabric (f : Fabric α) (lane : Lane) (op : StitchOp) (direction : Direction)
    {n : Needle} (hn : isIndex n.index = true) :
    Attempt.Comes (fun room => f.Reaches room lane)
      (fun room => tryStitchFabric room f op direction n lane)
      (stitchFabric f op direction n lane) (stitchFabric f op direction n lane).Within := by
  cases op with
  | knit =>
    exact (Fabric.comes_tryKnit f lane direction hn).bind (Attempt.comes_ok fun _ => And.right)
  | tuck =>
    exact (Fabric.comes_tryTuck f lane direction hn).bind (Attempt.comes_ok fun _ => And.right)
  | miss => exact Attempt.comes_ok fun _ h => h.fabric

def tryStitch (room : Nat) (m : Machine α) (op : StitchOp) (direction : Direction) (n : Needle)
    (names : List String) : Attempt (Step α) :=
  if n.bed.isSlider then return m.fail (.stitchOnSlider n)
  else
    match n.longSlot m.racking with
    | .error e => return m.fail e
    | .ok slot =>
      if names.isEmpty then m.tryStitchBare room op n slot
      else
        m.tryWithYarn room names direction n
          (m.singlePass .knitTuck slot (slotOp op n.bed.isFront) direction names) fun f lane => do
            let fabric ← tryStitchFabric room f op direction n lane
            return (fabric, none, [])

theorem comes_tryStitch (hm : m.Ready) (op : StitchOp) (direction : Direction) {n : Needle}
    (hn : isIndex n.index = true) (names : List String) :
    Attempt.Comes m.Within (fun room => m.tryStitch room op direction n names)
      (m.stitch op direction n names) (m.stitch op direction n names).machine.Within := by
  simp only [stitch_eq, stitchSlot, tryStitch, Needle.longSlot_eq hn]
  cases n.bed.isSlider with
  | true => exact Attempt.comes_ok fun _ => id
  | false =>
    simp only [Bool.false_eq_true, if_false]
    cases n.slot m.racking with
    | error e => exact Attempt.comes_ok fun _ => id
    | ok slot =>
      cases names with
      | nil => exact comes_tryStitchBare hm op n slot
      | cons leader rest =>
        dsimp only
        simp only [List.isEmpty_cons, if_neg Bool.false_ne_true]
        refine comes_tryWithYarn hm (kick_singlePass ..) ?_
        intro lane
        refine (comes_tryStitchFabric m.fabric lane op direction hn).bind ?_
        exact Attempt.comes_ok fun _ => And.right

def trySplitFabric (room : Nat) (source target : Needle) (direction : Direction) (f : Fabric α)
    (lane : Lane) : Attempt (Fabric α × Option Warning × List Event) := do
  match ← f.tryTransfer room source target lane.count with
  | .error w =>
    let (fabric, _) ← f.tryKnit room direction source lane
    return (fabric, some w, [])
  | .ok (moved, events) =>
    let (fabric, _) ← moved.tryKnit room direction source lane
    return (fabric, none, events)

theorem comes_trySplitFabric (f : Fabric α) (lane : Lane) {source target : Needle}
    (hsource : isIndex source.index = true) (htarget : isIndex target.index = true)
    (direction : Direction) :
    Attempt.Comes (fun room => f.Reaches room lane)
      (fun room => trySplitFabric room source target direction f lane)
      (splitFabric source target direction f lane)
      (splitFabric source target direction f lane).1.Within := by
  unfold trySplitFabric splitFabric
  refine ((Fabric.comes_tryTransfer f source htarget lane.count).of fun room h => h.fabric).bind ?_
  cases f.transfer source target lane.count with
  | error w =>
    refine ((Fabric.comes_tryKnit f lane direction hsource).of fun room h => h.1).bind ?_
    exact Attempt.comes_ok fun _ => And.right
  | ok moved =>
    refine ((Fabric.comes_tryKnit moved.1 lane direction hsource).of fun room h =>
      ⟨h.2 moved rfl, h.1.lane⟩).bind ?_
    exact Attempt.comes_ok fun _ => And.right

/-- The kind and slot of a move of loops, with slots reckoned in long numbers. -/
def longSplitPlace (source target : Needle) (racking : Float) (withYarn : Bool) :
    Except Error (PassKind × Int) := do
  let kind ← splitKind source target withYarn
  if source.bed.side = target.bed.side then throw (.sameSideTransfer source target)
  let slot ← source.longSlot racking
  let facing ← target.longSlot racking
  if slot ≠ facing then throw (.misaligned source target racking)
  return (kind, slot)

def trySplit (room : Nat) (m : Machine α) (direction : Direction) (source target : Needle)
    (names : List String) : Attempt (Step α) :=
  match longSplitPlace source target m.racking (!names.isEmpty) with
  | .error e => return m.fail e
  | .ok (kind, slot) =>
    let p := m.singlePass kind slot (splitOp source.bed.isFront (!names.isEmpty)) direction names
    if names.isEmpty then do
      match ← m.fabric.tryTransfer room source target m.carriers.declared.length with
      | .error w => return m.skip w
      | .ok (fabric, events) => ({ m with fabric } : Machine α).trySubmit room p none events
    else m.tryWithYarn room names direction source p (trySplitFabric room source target direction)

theorem comes_trySplit (hm : m.Ready) (direction : Direction) {source target : Needle}
    (hsource : isIndex source.index = true) (htarget : isIndex target.index = true)
    (names : List String) :
    Attempt.Comes m.Within (fun room => m.trySplit room direction source target names)
      (m.split direction source target names)
      (m.split direction source target names).machine.Within := by
  have hplace : longSplitPlace source target m.racking (!names.isEmpty) =
      splitPlace source target m.racking (!names.isEmpty) := by
    rw [longSplitPlace, splitPlace, Needle.longSlot_eq hsource, Needle.longSlot_eq htarget]
  simp only [split_eq, trySplit, hplace]
  cases splitPlace source target m.racking (!names.isEmpty) with
  | error e => exact Attempt.comes_ok fun _ => id
  | ok place =>
    cases names with
    | nil =>
      have hmoved := Fabric.comes_tryTransfer m.fabric source htarget m.carriers.declared.length
      refine (hmoved.of fun room h => h.fabric).bind ?_
      unfold splitBare
      cases m.fabric.transfer source target m.carriers.declared.length with
      | error w => exact Attempt.comes_ok fun _ => And.left
      | ok moved =>
        refine (comes_trySubmit (hm.withFabric _) (kick_singlePass ..) none _).of ?_
        exact fun room h => h.1.withFabric (h.2 moved rfl)
    | cons leader rest =>
      dsimp only
      simp only [List.isEmpty_cons, if_neg Bool.false_ne_true]
      refine comes_tryWithYarn hm (kick_singlePass ..) ?_
      intro lane
      exact comes_trySplitFabric m.fabric lane hsource htarget direction

/-! ### Instructions -/

def tryBringIn (room : Nat) (m : Machine α) (kind : InKind) (names : List String) :
    Attempt (Step α) :=
  if names.isEmpty then return m.fail (.noCarriers kind.op)
  else do
    match ← m.carriers.tryBringIn room kind names with
    | .error e => return m.fail e
    | .ok carriers =>
      let m := { m with carriers }
      match kind with
      | .plain => return m.done []
      | .hook =>
        match m.hook.hold names with
        | .error e => return m.fail e
        | .ok hook => return { m with hook }.done []

omit [Scalar α] in
theorem comes_tryBringIn (m : Machine α) (kind : InKind) (names : List String) :
    Attempt.Comes m.Within (fun room => m.tryBringIn room kind names) (m.bringIn kind names)
      (m.bringIn kind names).machine.Within := by
  unfold tryBringIn bringIn
  cases names.isEmpty with
  | true => exact Attempt.comes_ok fun _ => id
  | false =>
    refine ((Carriers.comes_tryBringIn m.carriers kind names).of fun room h => h.declared).bind ?_
    cases m.carriers.bringIn kind names with
    | error e => exact Attempt.comes_ok fun _ => And.left
    | ok carriers =>
      have hbrought : ∀ room, m.Within room ∧ Carriers.LeavesRoom room (.ok carriers) →
          ({ m with carriers } : Machine α).Within room := fun room h =>
        ⟨h.1.fabric, h.2 carriers rfl, h.1.closed⟩
      cases kind with
      | plain => exact Attempt.comes_ok hbrought
      | hook =>
        dsimp only
        cases m.hook.hold names with
        | error e => exact Attempt.comes_ok hbrought
        | ok hook =>
          refine Attempt.comes_ok fun room h => ?_
          exact ⟨(hbrought room h).fabric, (hbrought room h).declared, (hbrought room h).closed⟩

/-- An attempt at an instruction. Only those that bring carriers in, stitch or split can go
wrong. -/
def tryExecute (room : Nat) (m : Machine α) (i : Instruction) : Attempt (Step α) :=
  match i with
  | .bringIn kind names => m.tryBringIn room kind names
  | .stitch op direction n names => m.tryStitch room op direction n names
  | .split direction source target names => m.trySplit room direction source target names
  | i => return m.execute i

omit [Scalar α] in
/-- Letting go of the hook closes no pass. -/
theorem Within.releaseHook {room : Nat} (hm : m.Within room) (names : List String) :
    (m.releaseHook names).machine.Within room := by
  unfold Machine.releaseHook
  split
  · exact hm
  · exact ⟨hm.fabric, hm.declared, m.schedule.closed_release ▸ hm.closed⟩

omit [Scalar α] in
/-- Taking carriers out closes no pass either, and what is declared stays so. -/
theorem Within.takeOut {room : Nat} (hm : m.Within room) (withHook : Bool) (names : List String) :
    (m.takeOut withHook names).machine.Within room := by
  have hclosed : (m.schedule.takeOut names withHook).1.closed.length ≤ room := by
    rw [Schedule.closed_takeOut]
    exact hm.closed
  have hdeclared : (m.carriers.removeAll names).declared.length ≤ room := by
    rw [(Carriers.removeAll_declared m.carriers names).1]
    exact hm.declared
  unfold Machine.takeOut
  split
  · exact hm
  · split
    · exact hm
    · split
      · exact hm
      · exact ⟨hm.fabric, hdeclared, hclosed⟩

/-- A reachable machine has counted its kicks and tells its carriers apart. -/
theorem Reachable.ready {config : Config α} {allowed : Instruction → Step α → Prop}
    (hreach : Reachable config allowed m) : m.Ready where
  kicks := hreach.countsKicks
  names := hreach.nodup_names
  active := Carriers.length_members_le hreach.nodup_names hreach.allDeclared

theorem comes_tryExecute (hm : m.Ready) {i : Instruction} (hi : i.InRange) :
    Attempt.Comes m.Within (fun room => m.tryExecute room i) (m.execute i)
      (m.execute i).machine.Within := by
  cases i with
  | bringIn kind names => exact comes_tryBringIn m kind names
  | stitch op direction n names => exact comes_tryStitch hm op direction hi names
  | split direction source target names => exact comes_trySplit hm direction hi.1 hi.2 names
  | releaseHook names => exact Attempt.comes_ok fun _ h => h.releaseHook names
  | takeOut withHook names => exact Attempt.comes_ok fun _ h => h.takeOut withHook names
  | rack racking => exact Attempt.comes_ok fun _ h => ⟨h.fabric, h.declared, h.closed⟩
  | pause => exact Attempt.comes_ok fun _ => id
  | extension op => exact Attempt.comes_ok fun _ => id
  | unsupported op => exact Attempt.comes_ok fun _ => id

end Machine

end Knitting
