import Knitting.Proofs.Machine.Effect
import Knitting.Proofs.Mirror.Fabric
import Knitting.Proofs.Mirror.Pass
import Mathlib

set_option autoImplicit false

/-! # Left and right, one instruction

The image of an instruction is the instruction at the images of its needles, the other way, and a
racking by as many needles the other way (`Instruction.mirror`). Carried out on the image of a
machine it leaves the image of what the instruction leaves, and what is reported is of one kind
(`Machine.Mirrors.execute`), as long as rackings are whole numbers and nothing is too far out to be
told apart. -/

namespace Knitting

/-! ## Kinds of outcomes -/

/-- The kind of an error is what it is called, without what it names and where it comes from. -/
def Error.kind (e : Error) : Nat := e.root.ctorIdx

def Warning.kind (w : Warning) : Nat := w.ctorIdx

/-- What became of an instruction, without what its error or warning names. -/
def outcomeKind (outcome : Except Error (Option Warning)) : Except Nat (Option Nat) :=
  match outcome with
  | .error e => .error e.kind
  | .ok w => .ok (w.map Warning.kind)

/-! ## Instructions -/

namespace Instruction

/-- An instruction with left and right exchanged. -/
def mirror : Instruction → Instruction
  | .stitch op direction n names => .stitch op direction.opposite n.mirror names
  | .split direction source target names =>
    .split direction.opposite source.mirror target.mirror names
  | .rack racking => .rack (-racking)
  | i => i

/-- The needles of an instruction are not too far out, and it racks by a whole number of needles
that is not too great. -/
def IsNear : Instruction → Prop
  | .stitch _ _ n _ => n.index.natAbs ≤ 2 ^ 29
  | .split _ source target _ => source.index.natAbs ≤ 2 ^ 29 ∧ target.index.natAbs ≤ 2 ^ 29
  | .rack racking => ∃ r : Int, r.natAbs ≤ 2 ^ 29 ∧ (racking == Float.ofInt r) = true
  | _ => True

/-- What is done with yarn has a direction. -/
def IsDirected : Instruction → Prop
  | .stitch _ direction _ names => names ≠ [] → direction ≠ .undirected
  | .split direction _ _ names => names ≠ [] → direction ≠ .undirected
  | _ => True

end Instruction

namespace Machine

variable {α : Type} [Scalar α]

/-! ## Machines -/

/-- The image of a machine. -/
structure Mirrors (m m' : Machine α) : Prop where
  config : m'.config = m.config
  carriers : m'.carriers = m.carriers.mirror
  hook : m'.hook = m.hook
  racking : Racking.Mirrors m.racking m'.racking
  fabric : m.fabric.Mirrors m'.fabric
  schedule : m.schedule.Mirrors m'.schedule
  kicks : m'.kicks = m.kicks
  /-- All that is parked is in range, and will be. -/
  inRange : m.carriers.InRange
  reach : isIndex m.config.stoppingDistance = true

/-- Two steps report the same kind, and leave a machine and its image. -/
structure StepMirrors (s s' : Step α) : Prop where
  outcome : outcomeKind s'.outcome = outcomeKind s.outcome
  machine : s.machine.Mirrors s'.machine

theorem mirrors_initial {config : Config α} (hreach : isIndex config.stoppingDistance = true) :
    (initial config).Mirrors (initial config) where
  config := rfl
  carriers := rfl
  hook := rfl
  racking := Racking.mirrors_zero
  fabric := .empty _
  schedule := .empty
  kicks := rfl
  inRange := nofun
  reach := hreach

namespace Mirrors

variable {m m' : Machine α}

theorem fail (h : m.Mirrors m') {e e' : Error} (he : e'.kind = e.kind) :
    StepMirrors (m.fail e) (m'.fail e') :=
  ⟨congrArg Except.error he, h⟩

theorem skip (h : m.Mirrors m') {w w' : Warning} (hw : w'.kind = w.kind) :
    StepMirrors (m.skip w) (m'.skip w') :=
  ⟨congrArg (fun k => Except.ok (some k)) hw, h⟩

theorem done (h : m.Mirrors m') (events events' : List Event) :
    StepMirrors (m.done events) (m'.done events') :=
  ⟨rfl, h⟩

theorem withCarriers (h : m.Mirrors m') {t : Carriers} (ht : t.InRange) :
    ({ m with carriers := t } : Machine α).Mirrors { m' with carriers := t.mirror } :=
  ⟨h.config, rfl, h.hook, h.racking, h.fabric, h.schedule, h.kicks, ht, h.reach⟩

theorem withFabric (h : m.Mirrors m') {f f' : Fabric α} (hf : f.Mirrors f') :
    ({ m with fabric := f } : Machine α).Mirrors { m' with fabric := f' } :=
  ⟨h.config, h.carriers, h.hook, h.racking, hf, h.schedule, h.kicks, h.inRange, h.reach⟩

/-! ### Carriers and the hook -/

theorem bringIn (h : m.Mirrors m') (kind : InKind) (names : List String) :
    StepMirrors (m.bringIn kind names) (m'.bringIn kind names) := by
  unfold Machine.bringIn
  rw [h.carriers, Carriers.mirror_bringIn]
  split
  · exact h.fail rfl
  · cases hin : m.carriers.bringIn kind names with
    | error e => exact h.fail rfl
    | ok t =>
      have hbrought := h.withCarriers (h.inRange.bringIn hin)
      cases kind with
      | plain => exact hbrought.done [] []
      | hook =>
        dsimp only [Except.map]
        rw [h.hook]
        cases m.hook.hold names with
        | error e =>
          exact ⟨rfl, hbrought.config, rfl, rfl, hbrought.racking, hbrought.fabric,
            hbrought.schedule, hbrought.kicks, hbrought.inRange, hbrought.reach⟩
        | ok hook =>
          exact ⟨rfl, hbrought.config, rfl, rfl, hbrought.racking, hbrought.fabric,
            hbrought.schedule, hbrought.kicks, hbrought.inRange, hbrought.reach⟩

theorem releaseHook (h : m.Mirrors m') (names : List String) :
    StepMirrors (m.releaseHook names) (m'.releaseHook names) := by
  unfold Machine.releaseHook
  rw [h.hook]
  cases m.hook.release names with
  | error e => exact h.fail rfl
  | ok hook =>
    exact ⟨rfl, h.config, h.carriers, rfl, h.racking, h.fabric, h.schedule.release, h.kicks,
      h.inRange, h.reach⟩

end Mirrors

theorem outRefusal?_mirror (t : Carriers) (names : List String) :
    outRefusal? t.mirror names = outRefusal? t names := by
  unfold outRefusal?
  congr 1
  funext name
  rw [Carriers.get?_mirror]
  cases t.get? name with
  | none => rfl
  | some c => cases hlast : c.last <;> simp [Carrier.mirror, hlast]

theorem takeOne_mirror (s : Carriers × Option PendingIn) (name : String) :
    takeOne (s.1.mirror, s.2) name = ((takeOne s name).1.mirror, (takeOne s name).2) := by
  have hpending : (s.1.mirror.get? name).bind (·.pending) = (s.1.get? name).bind (·.pending) := by
    rw [Carriers.get?_mirror]
    cases s.1.get? name <;> rfl
  unfold takeOne
  rw [hpending]
  cases (s.1.get? name).bind (·.pending) with
  | none => rfl
  | some p =>
    refine Prod.ext ?_ rfl
    refine (Carriers.mirror_mapMembers s.1
      (f := fun c => if c.name = name then { c with pending := none } else c) ?_).symm
    intro c
    rw [Carrier.name_mirror]
    split <;> rfl

theorem takePending_mirror (t : Carriers) (names : List String) :
    takePending t.mirror names = ((takePending t names).1.mirror, (takePending t names).2) := by
  rw [takePending_eq, takePending_eq]
  exact @List.foldl_hom _ _ _ (fun s : Carriers × Option PendingIn => (s.1.mirror, s.2)) takeOne
    takeOne names (t, none) takeOne_mirror

theorem inRange_takePending {t : Carriers} (h : t.InRange) (names : List String) :
    (takePending t names).1.InRange := by
  rw [takePending_eq]
  refine List.foldlRecOn names takeOne (motive := fun s : Carriers × Option PendingIn =>
    s.1.InRange) (show (t, (none : Option PendingIn)).1.InRange from h) ?_
  intro s hs name _
  unfold takeOne
  split
  · exact hs
  · exact hs.mapMembers (f := fun c => if c.name = name then { c with pending := none } else c) (by
      intro c hc
      split
      · exact hc
      · exact hc)

/-- A group is refused for the same reason in the mirror, or used in the image of its pass. -/
theorem use_mirror {t : Carriers} (ht : t.InRange) (names : List String) {p p' : Pass}
    (hp : p.Mirrors p') :
    ∃ u : Carriers, u.InRange ∧
      ((∃ e, use t names p = (u, .error e) ∧ use t.mirror names p' = (u.mirror, .error e)) ∨
        ∃ q q', use t names p = (u, .ok q) ∧ use t.mirror names p' = (u.mirror, .ok q') ∧
          q.Mirrors q' ∧ q.slots = p.slots) := by
  have htaken : (takePending t names).1.InRange ∧
      (takePending t.mirror names).1 = (takePending t names).1.mirror :=
    ⟨inRange_takePending ht names, by rw [takePending_mirror]⟩
  have hpending : (takePending t names).2 = (takePending t.mirror names).2 := by
    rw [takePending_mirror]
  have hstart : ∀ kind, (startWith p kind).Mirrors (startWith p' kind) ∧
      (startWith p kind).slots = p.slots := by
    intro kind
    exact ⟨⟨hp.kind, hp.slots, hp.racking, hp.stitch, hp.direction, hp.carriers,
      by simp only [startWith, hp.hook], rfl, hp.kick⟩, rfl⟩
  obtain ⟨⟨hu, hmirror⟩, hpass⟩ := use_rel (R := fun u u' => u.InRange ∧ u' = u.mirror)
    (S := fun q q' => q.Mirrors q' ∧ q.slots = p.slots) p p' ⟨ht, rfl⟩
    (Carriers.isActive_mirror t).symm htaken hpending ⟨hp, rfl⟩ hstart
  refine ⟨(use t names p).1, hu, ?_⟩
  rcases hpass with ⟨e, he, he'⟩ | ⟨q, q', hq, hq', hmirrors, hslots⟩
  · exact .inl ⟨e, Prod.ext rfl he, Prod.ext hmirror he'⟩
  · exact .inr ⟨q, q', Prod.ext rfl hq, Prod.ext hmirror hq', hmirrors, hslots⟩

namespace Mirrors

variable {m m' : Machine α}

theorem takeOut (h : m.Mirrors m') (withHook : Bool) (names : List String) :
    StepMirrors (m.takeOut withHook names) (m'.takeOut withHook names) := by
  unfold Machine.takeOut
  rw [h.carriers, outRefusal?_mirror, h.hook]
  split
  · exact h.fail rfl
  · split
    · exact h.fail rfl
    · split
      · exact h.fail rfl
      · exact ⟨rfl, h.config, (Carriers.mirror_removeAll ..).symm, rfl, h.racking, h.fabric,
          h.schedule.takeOut names _, h.kicks, h.inRange.removeAll names, h.reach⟩

/-! ### Stitches -/

theorem submit (h : m.Mirrors m') {p p' : Pass} (hp : p.Mirrors p') {slot : Int}
    (hslot : p.IsAt slot) {w w' : Option Warning} (hw : w'.map Warning.kind = w.map Warning.kind)
    (events events' : List Event) :
    StepMirrors (m.submit p w events) (m'.submit p' w' events') := by
  unfold Machine.submit
  rw [h.carriers]
  rcases h.schedule.submit h.inRange h.racking hp hslot with ⟨e, he, he'⟩ | ⟨u, u', hu, hu', hm⟩
  · rw [he, he']
    exact ⟨rfl, h⟩
  · rw [hu, hu']
    refine ⟨congrArg Except.ok hw, h.config, hm.carriers, h.hook, h.racking, h.fabric,
      hm.schedule, ?_, hm.inRange, h.reach⟩
    show m'.kicks + u'.kicks = m.kicks + u.kicks
    rw [h.kicks, hm.kicks]

theorem singlePass (h : m.Mirrors m') (kind : PassKind) (slot : Int) (op : SlotOp)
    (direction : Direction) (names : List String) :
    (m.singlePass kind slot op direction names).Mirrors
      (m'.singlePass kind (-slot) op direction.opposite names) := by
  unfold Machine.singlePass
  rw [h.config]
  exact Pass.mirrors_single h.racking ..

theorem park (h : m.Mirrors m') (names : List String) (direction : Direction) {n : Needle}
    (hn : n.index.natAbs ≤ 2 ^ 29) :
    (m.park names direction n).Mirrors (m'.park names direction.opposite n.mirror) := by
  have hlast : n.index.natAbs ≤ 2 ^ 30 := by omega
  refine ⟨h.config, ?_, h.hook, h.racking, h.fabric, h.schedule, h.kicks,
    h.inRange.park names ⟨n, direction, m.config.stoppingDistance⟩ hlast h.reach, h.reach⟩
  unfold Machine.park
  rw [h.carriers, h.config]
  exact (m.carriers.mirror_park names ⟨n, direction, m.config.stoppingDistance⟩).symm

theorem withYarn (h : m.Mirrors m') (leader : String) (names : List String) (direction : Direction)
    {n : Needle} (hn : n.index.natAbs ≤ 2 ^ 29) {p p' : Pass} (hp : p.Mirrors p') {slot : Int}
    (hslot : p.IsAt slot) {work work' : Fabric α → Lane → Fabric α × Option Warning × List Event}
    (hwork : ∀ lane, (work m.fabric lane).1.Mirrors (work' m'.fabric lane).1 ∧
      (work' m'.fabric lane).2.1.map Warning.kind = (work m.fabric lane).2.1.map Warning.kind) :
    StepMirrors (m.withYarn leader names direction n p work)
      (m'.withYarn leader names direction.opposite n.mirror p' work') := by
  unfold Machine.withYarn
  rw [h.carriers]
  obtain ⟨t, ht, ⟨e, huse, huse'⟩ | ⟨q, q', huse, huse', hq, hslots⟩⟩ :=
    use_mirror h.inRange names hp
  · rw [huse, huse']
    exact (h.withCarriers ht).fail rfl
  · rw [huse, huse']
    dsimp only
    have hlane : t.mirror.lane? leader = t.lane? leader := rfl
    rw [hlane]
    cases t.lane? leader with
    | none => exact (h.withCarriers ht).fail rfl
    | some lane =>
      obtain ⟨hfabric, hwarning⟩ := hwork lane
      have hat : q.IsAt slot := ⟨hslot.1, by rw [hslots]; exact hslot.2⟩
      exact (((h.withCarriers ht).withFabric hfabric).park names direction hn).submit hq hat
        hwarning _ _

end Mirrors

section Work

variable [LawfulScalar α] {f f' : Fabric α}

theorem stitchFabric_mirror (h : f.Mirrors f') (op : StitchOp) {direction : Direction}
    (hdirection : direction ≠ .undirected) (n : Needle) (lane : Lane) :
    (stitchFabric f op direction n lane).Mirrors
      (stitchFabric f' op direction.opposite n.mirror lane) := by
  cases op with
  | knit => exact h.apply (.stitch true direction n lane) hdirection
  | tuck => exact h.apply (.stitch false direction n lane) hdirection
  | miss => exact h

theorem splitFabric_mirror (h : f.Mirrors f') (source target : Needle) {direction : Direction}
    (hdirection : direction ≠ .undirected) (lane : Lane) :
    (splitFabric source target direction f lane).1.Mirrors
        (splitFabric source.mirror target.mirror direction.opposite f' lane).1 ∧
      (splitFabric source.mirror target.mirror direction.opposite f' lane).2.1.map Warning.kind =
        (splitFabric source target direction f lane).2.1.map Warning.kind := by
  unfold splitFabric
  rcases h.transfer source target lane.count with ⟨hempty, hempty'⟩ | ⟨g, g', hok, hok', hg⟩
  · rw [hempty, hempty']
    exact ⟨h.apply (.stitch true direction source lane) hdirection, rfl⟩
  · rw [hok, hok']
    exact ⟨hg.apply (.stitch true direction source lane) hdirection, rfl⟩

end Work

/-! ### Places -/

/-- A stitch is refused for the place of its needle as in the mirror, or made at the image of its
slot. -/
theorem stitchSlot_mirror {racking racking' : Float} (h : Racking.Mirrors racking racking')
    {n : Needle} (hn : n.index.natAbs ≤ 2 ^ 29) :
    (∃ e e', stitchSlot n racking = .error e ∧ stitchSlot n.mirror racking' = .error e' ∧
        e'.kind = e.kind) ∨
      ∃ s : Int, s.natAbs ≤ 2 ^ 30 ∧ stitchSlot n racking = .ok s ∧
        stitchSlot n.mirror racking' = .ok (-s) := by
  unfold stitchSlot
  rw [Needle.bed_mirror]
  split
  · exact .inl ⟨_, _, rfl, rfl, rfl⟩
  · exact .inr (Needle.slot_mirror h hn)

theorem splitKind_mirror (source target : Needle) (withYarn : Bool) :
    (∃ e e', splitKind source target withYarn = .error e ∧
        splitKind source.mirror target.mirror withYarn = .error e' ∧ e'.kind = e.kind) ∨
      ∃ kind, splitKind source target withYarn = .ok kind ∧
        splitKind source.mirror target.mirror withYarn = .ok kind := by
  unfold splitKind
  rw [Needle.bed_mirror, Needle.bed_mirror]
  split
  · exact .inl ⟨_, _, rfl, rfl, rfl⟩
  · exact .inl ⟨_, _, rfl, rfl, rfl⟩
  all_goals exact .inr ⟨_, rfl, rfl⟩

theorem splitPlace_mirror {racking racking' : Float} (h : Racking.Mirrors racking racking')
    {source target : Needle} (hsource : source.index.natAbs ≤ 2 ^ 29)
    (htarget : target.index.natAbs ≤ 2 ^ 29) (withYarn : Bool) :
    (∃ e e', splitPlace source target racking withYarn = .error e ∧
        splitPlace source.mirror target.mirror racking' withYarn = .error e' ∧
        e'.kind = e.kind) ∨
      ∃ (kind : PassKind) (slot : Int), slot.natAbs ≤ 2 ^ 30 ∧
        splitPlace source target racking withYarn = .ok (kind, slot) ∧
        splitPlace source.mirror target.mirror racking' withYarn = .ok (kind, -slot) := by
  unfold splitPlace
  obtain ⟨slot, hslot, hfrom, hfrom'⟩ := Needle.slot_mirror h hsource
  obtain ⟨facing, -, hto, hto'⟩ := Needle.slot_mirror h htarget
  rw [hfrom, hfrom', hto, hto', Needle.bed_mirror, Needle.bed_mirror]
  rcases splitKind_mirror source target withYarn with ⟨e, e', he, he', hkind⟩ | ⟨kind, hk, hk'⟩
  · rw [he, he']
    exact .inl ⟨e, e', rfl, rfl, hkind⟩
  · rw [hk, hk']
    by_cases hside : source.bed.side = target.bed.side
    · simp only [hside]
      exact .inl ⟨_, _, rfl, rfl, rfl⟩
    · by_cases hfacing : slot = facing
      · subst hfacing
        refine .inr ⟨kind, slot, hslot, ?_, ?_⟩
        · simp [hside, bind, Except.bind, pure, Except.pure]
        · simp [hside, bind, Except.bind, pure, Except.pure]
      · have hfacing' : -slot ≠ -facing := fun h => hfacing (Int.neg_inj.1 h)
        refine .inl ⟨.misaligned source target racking,
          .misaligned source.mirror target.mirror racking', ?_, ?_, rfl⟩
        · simp [hside, hfacing, bind, Except.bind, throw, throwThe, MonadExceptOf.throw]
        · simp [hside, hfacing, bind, Except.bind, throw, throwThe, MonadExceptOf.throw]

/-! ### Steps -/

namespace Mirrors

variable {m m' : Machine α}

theorem stitchBare (h : m.Mirrors m') (op : StitchOp) (n : Needle) {slot : Int}
    (hslot : slot.natAbs ≤ 2 ^ 30) :
    StepMirrors (m.stitchBare op n slot) (m'.stitchBare op n.mirror (-slot)) := by
  have hat : ∀ (m : Machine α) (kind : PassKind) (op : SlotOp),
      (m.singlePass kind slot op .undirected []).IsAt slot := by
    intro m kind op
    exact Pass.isAt_single hslot ..
  unfold Machine.stitchBare
  cases op with
  | miss => exact h.fail rfl
  | tuck => exact h.submit (h.singlePass ..) (hat ..) rfl _ _
  | knit =>
    dsimp only
    rcases h.fabric.drop n with ⟨hempty, hempty'⟩ | ⟨dropped, dropped', hok, hok', hd⟩
    · rw [hempty, hempty']
      exact h.skip rfl
    · rw [hok, hok']
      have hdropped := h.withFabric hd
      exact hdropped.submit (h.singlePass ..) (hat ..) rfl _ _

variable [LawfulScalar α]

theorem splitBare (h : m.Mirrors m') (source target : Needle) {p p' : Pass} (hp : p.Mirrors p')
    {slot : Int} (hslot : p.IsAt slot) :
    StepMirrors (m.splitBare source target p) (m'.splitBare source.mirror target.mirror p') := by
  have hdeclared : m'.carriers.declared = m.carriers.declared := by
    rw [h.carriers]
    rfl
  unfold Machine.splitBare
  rw [hdeclared]
  rcases h.fabric.transfer source target m.carriers.declared.length with
    ⟨hempty, hempty'⟩ | ⟨moved, moved', hok, hok', hmoved⟩
  · rw [hempty, hempty']
    exact h.skip rfl
  · rw [hok, hok']
    exact (h.withFabric hmoved).submit hp hslot rfl _ _

theorem stitch (h : m.Mirrors m') (op : StitchOp) {direction : Direction} {n : Needle}
    (hn : n.index.natAbs ≤ 2 ^ 29) {names : List String}
    (hdirection : names ≠ [] → direction ≠ .undirected) :
    StepMirrors (m.stitch op direction n names)
      (m'.stitch op direction.opposite n.mirror names) := by
  rw [stitch_eq, stitch_eq]
  rcases stitchSlot_mirror h.racking hn with ⟨e, e', he, he', hkind⟩ | ⟨slot, hslot, hs, hs'⟩
  · rw [he, he']
    exact h.fail hkind
  · rw [hs, hs']
    cases names with
    | nil => exact h.stitchBare op n hslot
    | cons leader rest =>
      have hdirected := hdirection (List.cons_ne_nil _ _)
      refine h.withYarn leader (leader :: rest) direction hn (h.singlePass ..)
        (Pass.isAt_single hslot ..) ?_
      intro lane
      exact ⟨stitchFabric_mirror h.fabric op hdirected n lane, rfl⟩

theorem split (h : m.Mirrors m') {direction : Direction} {source target : Needle}
    (hsource : source.index.natAbs ≤ 2 ^ 29) (htarget : target.index.natAbs ≤ 2 ^ 29)
    {names : List String} (hdirection : names ≠ [] → direction ≠ .undirected) :
    StepMirrors (m.split direction source target names)
      (m'.split direction.opposite source.mirror target.mirror names) := by
  rw [split_eq, split_eq]
  rcases splitPlace_mirror h.racking hsource htarget (!names.isEmpty) with
    ⟨e, e', he, he', hkind⟩ | ⟨kind, slot, hslot, hs, hs'⟩
  · rw [he, he']
    exact h.fail hkind
  · rw [hs, hs']
    cases names with
    | nil => exact h.splitBare source target (h.singlePass ..) (Pass.isAt_single hslot ..)
    | cons leader rest =>
      have hdirected := hdirection (List.cons_ne_nil _ _)
      refine h.withYarn leader (leader :: rest) direction hsource (h.singlePass ..)
        (Pass.isAt_single hslot ..) ?_
      intro lane
      exact splitFabric_mirror h.fabric source target hdirected lane

/-- An instruction keeps the image of a machine its image, if the image of the instruction is
carried out there, and the two end in the same kind of way. -/
theorem execute (h : m.Mirrors m') {i : Instruction} (hdirected : i.IsDirected) (hnear : i.IsNear) :
    StepMirrors (m.execute i) (m'.execute i.mirror) := by
  cases i with
  | bringIn kind names => exact h.bringIn kind names
  | releaseHook names => exact h.releaseHook names
  | takeOut withHook names => exact h.takeOut withHook names
  | stitch op direction n names => exact h.stitch op hnear hdirected
  | split direction source target names => exact h.split hnear.1 hnear.2 hdirected
  | rack racking =>
    obtain ⟨r, hr, heq⟩ := hnear
    exact ⟨rfl, h.config, h.carriers, h.hook, Racking.mirrors_neg hr heq, h.fabric, h.schedule,
      h.kicks, h.inRange, h.reach⟩
  | pause => exact h.done [] []
  | extension op => exact h.skip rfl
  | unsupported op => exact h.skip rfl

end Mirrors

end Machine

end Knitting
