import Knitting.Proofs.Carrier.Table
import Knitting.Proofs.Pass.Zone

set_option autoImplicit false

/-! # What kicks leave in the way

A carrier is kicked at most once for a pass. So the kicks for a pass come in two waves only: those
out of the zone where it lands, and before the first of these the kicks out of the opposite zone,
into which it goes (`Submission.resolve_eq`). The kicks of the second wave end in the zone that the
first wave clears, and nothing is settled twice. The zone of the pass is thus clear in the end just
if it was clear from the start or the opposite one was (`Schedule.submit_clearZone_iff`). Else a
carrier that made way for a kick is left where the pass lands (`Schedule.kick_into_the_way`). -/

namespace Knitting

/-! ## A kick -/

@[simp] theorem Pass.kickFor_onlySlot? (p : Pass) (slot : Int) (name : String) :
    (p.kickFor slot name).onlySlot? = some slot := rfl

@[simp] theorem Pass.kickFor_direction (p : Pass) (slot : Int) (name : String) :
    (p.kickFor slot name).direction = p.direction.opposite := rfl

@[simp] theorem Pass.kickFor_carriers (p : Pass) (slot : Int) (name : String) :
    (p.kickFor slot name).carriers = [name] := rfl

@[simp] theorem Carrier.kickedTo_name (c : Carrier) (slot : Int) (direction : Direction) :
    (c.kickedTo slot direction).name = c.name := rfl

@[simp] theorem Carrier.kickedTo_kickedTo (c : Carrier) (slot slot' : Int)
    (direction direction' : Direction) :
    (c.kickedTo slot direction).kickedTo slot' direction' = c.kickedTo slot' direction' := by
  simp [Carrier.kickedTo, Function.comp_def]

/-- A kicked carrier is in the zone on the side to which it was kicked, if it needs clearance. -/
theorem Carrier.kickedTo_inZone_iff {c : Carrier} {slot : Int} {direction : Direction}
    (hslot : isIndex slot = true) (hdirection : direction ≠ .undirected)
    (hreach : ∀ last ∈ c.last, isIndex last.stoppingDistance = true) (racking : Float)
    (side : Direction) :
    (c.kickedTo slot direction).InZone racking slot side ↔
      side = direction ∧ ∃ last ∈ c.last, 1 ≤ last.stoppingDistance := by
  cases hlast : c.last with
  | none => simp [InZone, kickedTo, hlast]
  | some last =>
    have hkicked := inLandingZone_kicked_iff hslot (hreach last hlast) racking hdirection side
    simpa [InZone, kickedTo, hlast] using hkicked

/-- The active carriers after those of some names were kicked. -/
def Carriers.kickAll (t : Carriers) (names : List String) (slot : Int) (direction : Direction) :
    Carriers :=
  { t with
    members := t.members.map fun c => if c.name ∈ names then c.kickedTo slot direction else c }

theorem Carriers.foldl_update (slot : Int) (direction : Direction) (names : List String)
    (t : Carriers) :
    names.foldl (fun t name => t.update name fun c => c.kickedTo slot direction) t =
      t.kickAll names slot direction :=
  foldl_update_eq_mapMembers (f := fun c => c.kickedTo slot direction)
    (fun c => c.kickedTo_name slot direction)
    (fun c => c.kickedTo_kickedTo slot slot direction direction) names t

theorem Carriers.afterKick_eq {t : Carriers} {kick : Pass} {slot : Int}
    (honly : kick.onlySlot? = some slot) :
    t.afterKick kick = t.kickAll kick.carriers slot kick.direction := by
  simp only [afterKick, honly, foldl_update]

/-! ## Clear zones -/

/-- No carrier is parked in the landing zone of a slot, leaving out those of some names. -/
def Carriers.ClearZone (t : Carriers) (racking : Float) (slot : Int) (direction : Direction)
    (exempt : List String) : Prop :=
  ∀ c ∈ t.members, c.name ∉ exempt → ¬c.InZone racking slot direction

instance (t : Carriers) (racking : Float) (slot : Int) (direction : Direction)
    (exempt : List String) : Decidable (t.ClearZone racking slot direction exempt) :=
  inferInstanceAs (Decidable (∀ c ∈ t.members, _))

/-- What is moved among the exempt carriers does not count. -/
theorem Carriers.kickAll_clearZone_iff {t : Carriers} {racking : Float} {slot : Int}
    {direction : Direction} {exempt names : List String} (hsub : names ⊆ exempt) (slot' : Int)
    (direction' : Direction) :
    (t.kickAll names slot' direction').ClearZone racking slot direction exempt ↔
      t.ClearZone racking slot direction exempt := by
  simp only [ClearZone, kickAll, List.forall_mem_map]
  refine forall₂_congr ?_
  intro c _
  split
  · next hname => simp [hsub hname]
  · exact Iff.rfl

namespace Pass

variable {p : Pass} {slot : Int} {carriers : Carriers} {racking : Float} {settled : List String}

theorem mem_blockers_iff (honly : p.onlySlot? = some slot) (hyarn : p.carriers ≠ [])
    {b : Blocker} :
    b ∈ p.blockers carriers racking settled ↔
      ∃ c ∈ carriers.members, c.name ∉ settled ∧ ∃ last, c.last = some last ∧
        inLandingZone p.direction (Float.ofInt slot) (last.parkedSlot racking)
          (Float.ofInt last.stoppingDistance) = true ∧
        b = ⟨c.name, last.parkedSlot racking, slot⟩ := by
  have hyarn' : p.carriers.isEmpty = false := List.isEmpty_eq_false_iff.2 hyarn
  simp only [blockers, honly, hyarn', Bool.false_eq_true, if_false, Carriers.active,
    List.mem_filterMap, List.mem_filter, List.mem_mergeSort, Option.bind_eq_bind,
    Option.bind_eq_some_iff, Bool.not_eq_true', List.contains_eq_mem, decide_eq_false_iff_not,
    Option.ite_none_right_eq_some, Option.some.injEq, and_assoc, eq_comm (b := b)]

/-- The carriers in the way of a pass are those in its landing zone that are not settled. -/
theorem mem_names_blockers_iff (honly : p.onlySlot? = some slot) (hyarn : p.carriers ≠ [])
    {name : String} :
    name ∈ (p.blockers carriers racking settled).map (·.name) ↔
      ∃ c ∈ carriers.members, c.name = name ∧ c.name ∉ settled ∧
        c.InZone racking slot p.direction := by
  simp only [List.mem_map, mem_blockers_iff honly hyarn]
  constructor
  · rintro ⟨_, ⟨c, hc, hsettled, last, hlast, hzone, rfl⟩, rfl⟩
    exact ⟨c, hc, rfl, hsettled, last, hlast, hzone⟩
  · rintro ⟨c, hc, rfl, hsettled, last, hlast, hzone⟩
    exact ⟨_, ⟨c, hc, hsettled, last, hlast, hzone, rfl⟩, rfl⟩

theorem slot_of_mem_blockers (honly : p.onlySlot? = some slot) (hyarn : p.carriers ≠ [])
    {b : Blocker} (hb : b ∈ p.blockers carriers racking settled) : b.slot = slot := by
  obtain ⟨c, hc, hsettled, last, hlast, hzone, rfl⟩ := (mem_blockers_iff honly hyarn).1 hb
  rfl

/-- Nothing is in the way of a pass into a clear zone. -/
theorem blockers_eq_nil_iff (honly : p.onlySlot? = some slot) (hyarn : p.carriers ≠ []) :
    p.blockers carriers racking settled = [] ↔
      carriers.ClearZone racking slot p.direction settled := by
  rw [← List.map_eq_nil_iff (f := (·.name)), List.eq_nil_iff_forall_not_mem]
  simp only [mem_names_blockers_iff honly hyarn, Carriers.ClearZone]
  grind

/-- With what is in the way of a pass settled its zone is clear. -/
theorem clearZone_blockers (honly : p.onlySlot? = some slot) (hyarn : p.carriers ≠ []) :
    carriers.ClearZone racking slot p.direction
      (settled ++ (p.blockers carriers racking settled).map (·.name)) := by
  intro c hc hname hzone
  rw [List.mem_append, not_or] at hname
  exact hname.2 ((mem_names_blockers_iff honly hyarn).2 ⟨c, hc, rfl, hname.1, hzone⟩)

end Pass

/-! ## Two waves of kicks -/

namespace Submission

variable {s : Submission} {p : Pass} {racking : Float} {slot : Int} {direction : Direction}

/-- Nothing that could still be kicked is parked in the landing zone of a slot. -/
def Clear (s : Submission) (racking : Float) (slot : Int) (direction : Direction) : Prop :=
  s.carriers.ClearZone racking slot direction s.settled

instance (s : Submission) (racking : Float) (slot : Int) (direction : Direction) :
    Decidable (s.Clear racking slot direction) :=
  inferInstanceAs (Decidable (s.carriers.ClearZone racking slot direction s.settled))

theorem clear_settle_blockers (honly : p.onlySlot? = some slot) (hyarn : p.carriers ≠ []) :
    (s.settle (p.blockers s.carriers racking s.settled)).Clear racking slot p.direction :=
  Pass.clearZone_blockers honly hyarn

theorem Clear.settle (h : s.Clear racking slot direction) (blockers : List Blocker) :
    (s.settle blockers).Clear racking slot direction :=
  fun c hc hname => h c hc fun hmem => hname (List.mem_append_left _ hmem)

/-- A pass moves none but its own carriers. -/
theorem emit_clearZone_iff {exempt : List String} {slot' : Int} (honly : p.onlySlot? = some slot')
    (hsub : p.carriers ⊆ exempt) :
    (s.emit p).carriers.ClearZone racking slot direction exempt ↔
      s.carriers.ClearZone racking slot direction exempt := by
  simp only [emit]
  split
  · rw [Carriers.afterKick_eq honly, Carriers.kickAll_clearZone_iff hsub]
  · exact Iff.rfl

/-- Carries the kicks of carriers in the way of a pass out, with no regard to what is in the way of
these. -/
def emitKicks (s : Submission) (p : Pass) (blockers : List Blocker) : Submission :=
  blockers.foldl (fun s b => s.emit (p.kickFor b.slot b.name)) s

theorem settled_emitKicks (s : Submission) (p : Pass) (blockers : List Blocker) :
    (s.emitKicks p blockers).settled = s.settled := by
  induction blockers generalizing s with
  | nil => rfl
  | cons b blockers ih => exact ih _

theorem carriers_emitKicks (s : Submission) (p : Pass) {blockers : List Blocker}
    (hslot : ∀ b ∈ blockers, b.slot = slot) :
    (s.emitKicks p blockers).carriers =
      s.carriers.kickAll (blockers.map (·.name)) slot p.direction.opposite := by
  rw [← Carriers.foldl_update]
  induction blockers generalizing s with
  | nil => rfl
  | cons b blockers ih =>
    obtain ⟨hb, hrest⟩ := List.forall_mem_cons.1 hslot
    rw [emitKicks, List.foldl_cons, ← emitKicks, ih _ hrest, hb]
    rfl

theorem Clear.emitKicks {blockers : List Blocker} (h : s.Clear racking slot direction)
    (hslot : ∀ b ∈ blockers, b.slot = slot) (hsettled : ∀ b ∈ blockers, b.name ∈ s.settled) :
    (s.emitKicks p blockers).Clear racking slot direction := by
  rw [Clear, settled_emitKicks, carriers_emitKicks s p hslot, Carriers.kickAll_clearZone_iff]
  · exact h
  · exact List.forall_mem_map.2 hsettled

/-- A pass into a clear zone needs no kick. -/
theorem resolve_of_clear (honly : p.onlySlot? = some slot) (hyarn : p.carriers ≠ [])
    (h : s.Clear racking slot p.direction) (depth : Nat) :
    resolve racking depth s p = s.emit p := by
  cases depth with
  | zero => rfl
  | succ depth =>
    have hnil : p.blockers s.carriers racking s.settled = [] :=
      (Pass.blockers_eq_nil_iff honly hyarn).2 h
    simp [resolve, hnil, settle]

/-- Kicks into a clear zone need no further kick. -/
theorem foldl_resolve_of_clear {blockers : List Blocker}
    (h : s.Clear racking slot p.direction.opposite)
    (hslot : ∀ b ∈ blockers, b.slot = slot) (hsettled : ∀ b ∈ blockers, b.name ∈ s.settled)
    (depth : Nat) :
    blockers.foldl (fun s b => resolve racking depth s (p.kickFor b.slot b.name)) s =
      s.emitKicks p blockers := by
  induction blockers generalizing s with
  | nil => rfl
  | cons b blockers ih =>
    obtain ⟨hb, hslot⟩ := List.forall_mem_cons.1 hslot
    obtain ⟨hname, hsettled⟩ := List.forall_mem_cons.1 hsettled
    have hclear : s.Clear racking slot (p.kickFor b.slot b.name).direction := h
    have hkick : resolve racking depth s (p.kickFor b.slot b.name) =
        s.emit (p.kickFor b.slot b.name) :=
      resolve_of_clear (hb ▸ p.kickFor_onlySlot? b.slot b.name) (by simp) hclear depth
    have hnext : (s.emit (p.kickFor b.slot b.name)).Clear racking slot p.direction.opposite :=
      (emit_clearZone_iff (p.kickFor_onlySlot? b.slot b.name) (by simpa [emit] using hname)).2 h
    rw [List.foldl_cons, hkick, ih hnext hslot hsettled]
    rfl

theorem name_mem_settle {blockers : List Blocker} :
    ∀ b ∈ blockers, b.name ∈ (s.settle blockers).settled :=
  fun _ hb => List.mem_append_right _ (List.mem_map_of_mem hb)

/-- A pass with nothing on its other side needs one wave of kicks. -/
theorem resolve_of_clear_opposite (honly : p.onlySlot? = some slot) (hyarn : p.carriers ≠ [])
    (h : s.Clear racking slot p.direction.opposite) (depth : Nat) :
    let blockers := p.blockers s.carriers racking s.settled
    resolve racking (depth + 1) s p = ((s.settle blockers).emitKicks p blockers).emit p := by
  intro blockers
  have hslot : ∀ b ∈ blockers, b.slot = slot := fun _ => Pass.slot_of_mem_blockers honly hyarn
  rw [resolve, foldl_resolve_of_clear (h.settle blockers) hslot name_mem_settle]

/-- The kicks for a pass. Before the first carrier in its way is kicked, those that are in the way
of that kick are; the other kicks find their zone clear. -/
theorem resolve_eq (honly : p.onlySlot? = some slot) (hyarn : p.carriers ≠ []) {b : Blocker}
    {rest : List Blocker} (hblockers : p.blockers s.carriers racking s.settled = b :: rest)
    (depth : Nat) :
    let kick := p.kickFor slot b.name
    let first := kick.blockers s.carriers racking (s.settled ++ (b :: rest).map (·.name))
    resolve racking (depth + 2) s p =
      ((((s.settle (b :: rest)).settle first).emitKicks kick first).emitKicks p (b :: rest)).emit
        p := by
  intro kick first
  have hslot : ∀ b' ∈ b :: rest, b'.slot = slot := fun b' hb' =>
    Pass.slot_of_mem_blockers honly hyarn (hblockers ▸ hb')
  obtain ⟨rfl, hrest⟩ := List.forall_mem_cons.1 hslot
  have hfirst : ∀ b' ∈ first, b'.slot = b.slot := fun b' =>
    Pass.slot_of_mem_blockers (p.kickFor_onlySlot? b.slot b.name) (List.cons_ne_nil _ _)
  have hclear : (s.settle (b :: rest)).Clear racking b.slot kick.direction.opposite := by
    have hsettle : (s.settle (p.blockers s.carriers racking s.settled)).Clear racking b.slot
        p.direction := clear_settle_blockers honly hyarn
    rw [hblockers] at hsettle
    simpa [kick] using hsettle
  have hkick : resolve racking (depth + 1) (s.settle (b :: rest)) kick =
      (((s.settle (b :: rest)).settle first).emitKicks kick first).emit kick :=
    resolve_of_clear_opposite (p.kickFor_onlySlot? b.slot b.name) (List.cons_ne_nil _ _) hclear
      depth
  have hwave : (((s.settle (b :: rest)).settle first).emitKicks kick first).Clear racking b.slot
      p.direction.opposite :=
    (clear_settle_blockers (p.kickFor_onlySlot? b.slot b.name) (List.cons_ne_nil _ _)).emitKicks
      hfirst name_mem_settle
  have hsettled : ∀ b' ∈ b :: rest,
      b'.name ∈ (((s.settle (b :: rest)).settle first).emitKicks kick first).settled := by
    intro b' hb'
    rw [settled_emitKicks]
    exact List.mem_append_left _ (name_mem_settle b' hb')
  have hnext : ((((s.settle (b :: rest)).settle first).emitKicks kick first).emit kick).Clear
      racking b.slot p.direction.opposite :=
    (emit_clearZone_iff (p.kickFor_onlySlot? b.slot b.name)
      (by simpa [kick, emit] using hsettled b List.mem_cons_self)).2 hwave
  rw [resolve, hblockers, List.foldl_cons, hkick,
    foldl_resolve_of_clear hnext hrest fun b' hb' => hsettled b' (List.mem_cons_of_mem b hb')]
  rfl

end Submission

/-! ## What is left in the way -/

section Zone

variable {carriers : Carriers} {racking : Float} {slot : Int} {direction : Direction}
  {exempt near far : List String}

theorem Carriers.name_mem_iff (hnames : (carriers.members.map (·.name)).Nodup) {names : List String}
    {P : Carrier → Prop} (h : ∀ name, name ∈ names ↔ ∃ c ∈ carriers.members, c.name = name ∧ P c)
    {c : Carrier} (hc : c ∈ carriers.members) : c.name ∈ names ↔ P c := by
  rw [h]
  constructor
  · rintro ⟨c', hc', hname, hP⟩
    obtain rfl := List.inj_on_of_nodup_map hnames hc' hc hname
    exact hP
  · exact fun hP => ⟨c, hc, rfl, hP⟩

/-- After two waves of kicks a zone holds what the opposite zone held before: what was in the zone
goes into the opposite one, and what was there comes back. -/
theorem Carriers.waves_clearZone_iff (hslot : isIndex slot = true)
    (hdirection : direction ≠ .undirected) (hnames : (carriers.members.map (·.name)).Nodup)
    (hreach : ∀ c ∈ carriers.members, ∀ last ∈ c.last,
      0 ≤ last.stoppingDistance ∧ isIndex last.stoppingDistance = true)
    (hnear : ∀ name, name ∈ near ↔ ∃ c ∈ carriers.members, c.name = name ∧ c.name ∉ exempt ∧
      c.InZone racking slot direction)
    (hfar : ∀ name, name ∈ far ↔ ∃ c ∈ carriers.members, c.name = name ∧ c.name ∉ exempt ++ near ∧
      c.InZone racking slot direction.opposite) :
    ((carriers.kickAll far slot direction).kickAll near slot direction.opposite).ClearZone racking
        slot direction exempt ↔
      carriers.ClearZone racking slot direction.opposite exempt := by
  simp only [ClearZone, kickAll, List.forall_mem_map]
  refine forall₂_congr ?_
  intro c hc
  have hnear := name_mem_iff hnames hnear hc
  have hfar := name_mem_iff hnames hfar hc
  have hindex : ∀ last ∈ c.last, isIndex last.stoppingDistance = true :=
    fun last hlast => (hreach c hc last hlast).2
  by_cases hexempt : c.name ∈ exempt
  · have hnear : c.name ∉ near := fun h => (hnear.1 h).1 hexempt
    have hfar : c.name ∉ far := fun h => (hfar.1 h).1 (List.mem_append_left _ hexempt)
    simp [hnear, hfar, hexempt]
  by_cases hin : c.name ∈ near
  · -- It was kicked out of the zone, and it was not in the opposite one.
    have hout : c.name ∉ far := fun h => (hfar.1 h).1 (List.mem_append_right _ hin)
    have hzone : ¬c.InZone racking slot direction.opposite := (hnear.1 hin).2.not_opposite
    have hkicked : ¬(c.kickedTo slot direction.opposite).InZone racking slot direction := by
      rw [Carrier.kickedTo_inZone_iff hslot (Direction.opposite_ne_undirected hdirection) hindex]
      exact fun h => Direction.ne_opposite hdirection h.1
    simp [hin, hout, hzone, hkicked]
  by_cases hback : c.name ∈ far
  · -- It was kicked out of the opposite zone into this one.
    have hzone := (hfar.1 hback).2
    obtain ⟨last, hlast, hlanding⟩ := hzone
    have hone := one_le_of_inLandingZone hslot (hreach c hc last hlast).1 hlanding
    have hkicked : (c.kickedTo slot direction).InZone racking slot direction :=
      (Carrier.kickedTo_inZone_iff hslot hdirection hindex racking direction).2
        ⟨rfl, last, hlast, hone⟩
    simp [hin, hback, hkicked, (hfar.1 hback).2]
  · -- It was in neither.
    have hzone : ¬c.InZone racking slot direction := fun h => hin (hnear.2 ⟨hexempt, h⟩)
    have hopposite : ¬c.InZone racking slot direction.opposite :=
      fun h => hback (hfar.2 ⟨by simp [hexempt, hin], h⟩)
    simp [hin, hback, hzone, hopposite]

/-- With something in the way of a pass its zone ends up clear just if the opposite one was. -/
theorem Submission.resolve_clearZone_iff {s : Submission} {p : Pass}
    (honly : p.onlySlot? = some slot) (hslot : isIndex slot = true) (hyarn : p.carriers ≠ [])
    (hdirection : p.direction ≠ .undirected) (hown : p.carriers ⊆ s.settled)
    (hnames : (s.carriers.members.map (·.name)).Nodup)
    (hreach : ∀ c ∈ s.carriers.members, ∀ last ∈ c.last,
      0 ≤ last.stoppingDistance ∧ isIndex last.stoppingDistance = true)
    (hfound : ¬s.Clear racking slot p.direction) (depth : Nat) :
    (resolve racking (depth + 2) s p).carriers.ClearZone racking slot p.direction s.settled ↔
      s.Clear racking slot p.direction.opposite := by
  rw [Clear, ← Pass.blockers_eq_nil_iff honly hyarn] at hfound
  obtain ⟨b, rest, hblockers⟩ := List.exists_cons_of_ne_nil hfound
  have hkick : (p.kickFor slot b.name).onlySlot? = some slot := p.kickFor_onlySlot? slot b.name
  have hyarn' : (p.kickFor slot b.name).carriers ≠ [] := List.cons_ne_nil _ _
  have hnear : ∀ name, name ∈ (b :: rest).map (·.name) ↔ ∃ c ∈ s.carriers.members,
      c.name = name ∧ c.name ∉ s.settled ∧ c.InZone racking slot p.direction := fun name => by
    rw [← hblockers, Pass.mem_names_blockers_iff honly hyarn]
  have hslots : ∀ b' ∈ b :: rest, b'.slot = slot := fun _ hb' =>
    Pass.slot_of_mem_blockers honly hyarn (hblockers ▸ hb')
  rw [resolve_eq honly hyarn hblockers, emit_clearZone_iff honly hown,
    carriers_emitKicks _ p hslots,
    carriers_emitKicks _ _ fun _ => Pass.slot_of_mem_blockers hkick hyarn',
    Pass.kickFor_direction, Direction.opposite_opposite]
  exact Carriers.waves_clearZone_iff hslot hdirection hnames hreach hnear fun _ =>
    Pass.mem_names_blockers_iff hkick hyarn'

end Zone

/-- A pass that works at one slot, with yarn and in a direction, finds its landing zone clear just
if nothing but its own carriers was parked there before it was scheduled, or nothing but these in
the zone on the other side of the slot. -/
theorem Schedule.submit_clearZone_iff (schedule : Schedule) {carriers : Carriers} (racking : Float)
    {p : Pass} {slot : Int} (hvalid : p.validate = .ok ()) (honly : p.onlySlot? = some slot)
    (hslot : isIndex slot = true) (hyarn : p.carriers ≠ []) (hdirection : p.direction ≠ .undirected)
    (hnames : (carriers.members.map (·.name)).Nodup)
    (hreach : ∀ c ∈ carriers.members, ∀ last ∈ c.last,
      0 ≤ last.stoppingDistance ∧ isIndex last.stoppingDistance = true) :
    ∃ s, schedule.submit carriers racking p = .ok s ∧
      (s.carriers.ClearZone racking slot p.direction p.carriers ↔
        carriers.ClearZone racking slot p.direction p.carriers ∨
          carriers.ClearZone racking slot p.direction.opposite p.carriers) := by
  refine ⟨_, by rw [submit, hvalid], ?_⟩
  set s : Submission := ⟨schedule, carriers, p.carriers, 0, []⟩
  by_cases hclear : s.Clear racking slot p.direction
  · rw [Submission.resolve_of_clear honly hyarn hclear,
      Submission.emit_clearZone_iff honly (List.Subset.refl _)]
    exact ⟨.inl, fun _ => hclear⟩
  · -- Something is in the way, so there is an active carrier and depth for two waves.
    have hmembers : carriers.members ≠ [] := fun h => hclear (by simp [Submission.Clear, s,
      Carriers.ClearZone, h])
    obtain ⟨depth, hdepth⟩ := Nat.exists_eq_succ_of_ne_zero (List.length_pos_iff.2 hmembers).ne'
    rw [hdepth, Submission.resolve_clearZone_iff honly hslot hyarn hdirection (List.Subset.refl _)
      hnames hreach hclear]
    exact (or_iff_right hclear).symm

/-- Two carriers parked on either side of slot 5, and a third at slot 9. -/
def Carriers.crossed : Carriers where
  declared := ["A", "C", "B"]
  fromHeader := false
  members :=
    [⟨"A", some ⟨.front 4, .right, 2⟩, some ⟨.plain, ["A"]⟩⟩,
     ⟨"C", some ⟨.front 6, .left, 2⟩, some ⟨.plain, ["C"]⟩⟩,
     ⟨"B", some ⟨.front 9, .left, 2⟩, some ⟨.plain, ["B"]⟩⟩]

/-- Nothing is on the other side of slot 9, so kicking what is in the way clears it. -/
theorem Schedule.kick_out_of_the_way :
    ∃ s, Schedule.empty.submit .crossed 0
        (.single .knitTuck 9 .knitFront 0 5 .left ["A"]) = .ok s ∧
      s.carriers.ClearZone 0 9 .left ["A"] := by
  have hnames : (Carriers.crossed.members.map (·.name)).Nodup := by decide
  obtain ⟨s, hs, hclear⟩ := Schedule.submit_clearZone_iff .empty 0
    (p := .single .knitTuck 9 .knitFront 0 5 .left ["A"]) rfl rfl (by decide) (by decide)
    (by decide) hnames (by decide)
  exact ⟨s, hs, hclear.2 (.inr (by decide +kernel))⟩

/-- Kicked clear of the kick of `A`, carrier `C` is in the way of the pass, and it is not kicked
twice. -/
theorem Schedule.kick_into_the_way :
    ∃ s, Schedule.empty.submit .crossed 0
        (.single .knitTuck 5 .knitFront 0 5 .left ["B"]) = .ok s ∧
      ¬s.carriers.ClearZone 0 5 .left ["B"] :=
  ⟨_, rfl, (Submission.resolve_clearZone_iff rfl (by decide) (by decide) (by decide)
    (List.Subset.refl _) (by decide) (by decide) (by decide +kernel) _).not.2 (by decide +kernel)⟩

end Knitting
