import Knitting.Proofs.Pass.Work

set_option autoImplicit false

/-! # The kicks for a pass

What is carried out for a pass is a list of kicks and then the pass (`Schedule.exists_cascade`).
The kicks come in two waves at the slot of the pass (`Submission.exists_waves`): each of them moves
one other carrier, no carrier is moved twice, and no kick joins another pass. -/

namespace Knitting

/-! ## Passes that stay apart -/

theorem Pass.absorb?_eq_none_of_kick_ne {p q : Pass} (h : p.kick ≠ q.kick) :
    p.absorb? q = none := by
  simp [absorb?, agrees, h]

/-- The pass with the yarn of one carrier that parks it at a slot, on the side of a direction. -/
def Pass.kickTo (p : Pass) (slot : Int) (direction : Direction) (name : String) : Pass :=
  { Pass.single .knitTuck slot .missFront p.racking p.stitch direction [name] with kick := true }

theorem Pass.kickFor_eq (p : Pass) (slot : Int) (name : String) :
    p.kickFor slot name = p.kickTo slot p.direction.opposite name := rfl

/-- A kick for a kick goes the way of the pass. -/
theorem Pass.kickFor_kickFor (p : Pass) (slot : Int) (name name' : String) :
    (p.kickFor slot name).kickFor slot name' = p.kickTo slot p.direction name' := by
  rw [kickFor_eq, kickFor_direction, Direction.opposite_opposite]
  rfl

theorem Pass.addSlot?_self {direction : Direction} {slots : Table Int SlotOp} {slot : Int}
    {op first : SlotOp} (hfirst : slots.get? slot = some first) (hnone : first.merge? op = none) :
    addSlot? direction slots slot op = none := by
  simp [addSlot?, hfirst, hnone]

/-- Two kicks at one slot are two passes. -/
theorem Pass.kickTo_absorb? (p : Pass) (slot : Int) (direction direction' : Direction)
    (name name' : String) :
    (p.kickTo slot direction name).absorb? (p.kickTo slot direction' name') = none := by
  unfold absorb?
  split
  · rfl
  · have htwice : addSlot? direction (p.kickTo slot direction name).slots slot .missFront = none :=
      addSlot?_self (Table.get?_insert_self _ _ _) rfl
    have hentries : (p.kickTo slot direction' name').slots.entries = [(slot, .missFront)] := rfl
    rw [hentries, addSlots?]
    exact congrArg (Option.map _) (congrArg (Option.bind · _) htwice)

namespace Schedule

/-- Adds passes one after the other. -/
def appendAll (s : Schedule) (ps : List Pass) : Schedule := ps.foldl (fun s p => (s.append p).1) s

theorem append_eq_of_absorb?_eq_none {s : Schedule} {p : Pass}
    (h : ∀ q ∈ s.openPass, q.absorb? p = none) : (s.append p).1 = ⟨s.passes, some p⟩ := by
  unfold append passes
  cases hopen : s.openPass with
  | none => simp
  | some q => simp [h q hopen]

/-- Passes none of which joins the one before it stay as they are. -/
theorem appendAll_eq_of_isChain {ps : List Pass} {p : Pass} {s : Schedule}
    (hfirst : ∀ q ∈ s.openPass, ∀ q' ∈ (ps ++ [p]).head?, q.absorb? q' = none)
    (hchain : (ps ++ [p]).IsChain fun q q' => q.absorb? q' = none) :
    s.appendAll (ps ++ [p]) = ⟨s.passes ++ ps, some p⟩ := by
  induction ps generalizing s with
  | nil =>
    rw [List.nil_append, appendAll, List.foldl_cons, List.foldl_nil, List.append_nil]
    exact append_eq_of_absorb?_eq_none fun q hq => hfirst q hq p rfl
  | cons q ps ih =>
    obtain ⟨hnext, hrest⟩ := List.isChain_cons.1 hchain
    have happend : (s.append q).1 = ⟨s.passes, some q⟩ :=
      append_eq_of_absorb?_eq_none fun q' hq' => hfirst q' hq' q rfl
    rw [List.cons_append, appendAll, List.foldl_cons, ← appendAll, happend, ih ?_ hrest]
    · simp [passes]
    · intro q' hq'
      obtain rfl := Option.some.inj hq'
      exact hnext

end Schedule

/-! ## The kicks for a pass -/

namespace Pass

/-- Two waves of kicks at a slot: the first goes the way of the pass, the second comes against
it. -/
def waves (p : Pass) (slot : Int) (far near : List String) : List Pass :=
  far.map (p.kickTo slot p.direction) ++ near.map (p.kickTo slot p.direction.opposite)

theorem mem_waves {p : Pass} {slot : Int} {far near : List String} {k : Pass}
    (h : k ∈ p.waves slot far near) :
    ∃ name ∈ far ++ near, ∃ direction, k = p.kickTo slot direction name := by
  rcases List.mem_append.1 h with h | h
  · obtain ⟨name, hname, rfl⟩ := List.mem_map.1 h
    exact ⟨name, List.mem_append_left _ hname, _, rfl⟩
  · obtain ⟨name, hname, rfl⟩ := List.mem_map.1 h
    exact ⟨name, List.mem_append_right _ hname, _, rfl⟩

theorem kick_of_mem_waves {p : Pass} {slot : Int} {far near : List String} {k : Pass}
    (h : k ∈ p.waves slot far near) : k.kick = true := by
  obtain ⟨name, -, direction, rfl⟩ := mem_waves h
  rfl

theorem carriers_waves (p : Pass) (slot : Int) (far near : List String) :
    (p.waves slot far near).flatMap (·.carriers) = far ++ near := by
  simp [waves, kickTo, single, List.flatMap_map]

end Pass

namespace Submission

variable {s : Submission} {p : Pass} {racking : Float}

/-- Carries passes out one after the other. -/
def emitAll (s : Submission) (ps : List Pass) : Submission := ps.foldl emit s

theorem schedule_emitAll (s : Submission) (ps : List Pass) :
    (s.emitAll ps).schedule = s.schedule.appendAll ps := by
  induction ps generalizing s with
  | nil => rfl
  | cons q ps ih => exact ih (s.emit q)

theorem kicks_emitAll (s : Submission) (ps : List Pass) :
    (s.emitAll ps).kicks = s.kicks + ps.countP (·.kick) := by
  induction ps generalizing s with
  | nil => rfl
  | cons q ps ih =>
    rw [emitAll, List.foldl_cons, ← emitAll, ih, kicks_emit, List.countP_cons]
    omega

/-- How the kicks for a pass come about: some of the carriers that are not settled are kicked in two
waves at the slot of the pass, each of them once. There is no first wave without a second. -/
structure Waves (s : Submission) (racking : Float) (p : Pass) (slot : Int)
    (far near : List String) : Prop where
  place : near ≠ [] → p.onlySlot? = some slot
  first : near = [] → far = []
  needed : near = [] ↔ ∀ c ∈ s.carriers.members, c.name ∉ s.settled → ¬p.LandsOn racking c
  once : (far ++ near).Nodup
  kicked : ∀ name ∈ far ++ near, ∃ c ∈ s.carriers.members,
    c.name = name ∧ c.name ∉ s.settled ∧ c.last.isSome = true

theorem emitAll_append (s : Submission) (ps qs : List Pass) :
    s.emitAll (ps ++ qs) = (s.emitAll ps).emitAll qs := List.foldl_append

theorem emitKicks_eq {slot : Int} {blockers : List Blocker}
    (hslot : ∀ b ∈ blockers, b.slot = slot) (s : Submission) (p : Pass) :
    s.emitKicks p blockers = s.emitAll ((blockers.map (·.name)).map (p.kickFor slot)) := by
  induction blockers generalizing s with
  | nil => rfl
  | cons b blockers ih =>
    obtain ⟨rfl, hrest⟩ := List.forall_mem_cons.1 hslot
    exact ih hrest (s.emit (p.kickFor b.slot b.name))

/-- What is in the way of a pass has been parked by a stitch or a kick. -/
theorem exists_of_mem_names {name : String}
    (h : name ∈ (p.blockers s.carriers racking s.settled).map (·.name)) :
    ∃ c ∈ s.carriers.members, c.name = name ∧ c.name ∉ s.settled ∧ c.last.isSome = true := by
  obtain ⟨c, hc, hname, hsettled, -, slot, -, last, hlast, -⟩ :=
    Pass.mem_names_blockers_iff_landsOn.1 h
  exact ⟨c, hc, hname, hsettled, by rw [hlast]; rfl⟩

/-- Where nothing is in the way there are no kicks. -/
theorem waves_of_blockers_eq_nil (h : p.blockers s.carriers racking s.settled = []) :
    s.Waves racking p 0 [] [] where
  place := fun hne => absurd rfl hne
  first := fun _ => rfl
  needed := iff_of_true rfl (Pass.blockers_eq_nil_iff_landsOn.1 h)
  once := List.nodup_nil
  kicked := by simp

/-- The second wave is what is in the way of the pass, the first what is in the way of the first
kick for it. -/
theorem waves_of_blockers_eq_cons {b : Blocker} {rest : List Blocker}
    (hnames : (s.carriers.members.map (·.name)).Nodup) (honly : p.onlySlot? = some b.slot)
    (hblockers : p.blockers s.carriers racking s.settled = b :: rest) :
    s.Waves racking p b.slot
      (((p.kickFor b.slot b.name).blockers s.carriers racking
        (s.settled ++ (b :: rest).map (·.name))).map (·.name))
      ((b :: rest).map (·.name)) := by
  set settled := s.settled ++ (b :: rest).map (·.name)
  have hfirst : ∀ name ∈ ((p.kickFor b.slot b.name).blockers s.carriers racking settled).map
      (·.name), ∃ c ∈ s.carriers.members, c.name = name ∧ c.name ∉ settled ∧
        c.last.isSome = true := fun name hname =>
    exists_of_mem_names (s := { s with settled := settled }) hname
  refine ⟨fun _ => honly, fun h => absurd h (List.cons_ne_nil _ _), ?_, ?_, ?_⟩
  · rw [← Pass.blockers_eq_nil_iff_landsOn, hblockers]
    simp
  · refine List.nodup_append.2 ⟨Pass.nodup_names_blockers hnames, ?_, ?_⟩
    · rw [← hblockers]
      exact Pass.nodup_names_blockers hnames
    · rintro name hname _ hname' rfl
      obtain ⟨c, -, rfl, hsettled, -⟩ := hfirst name hname
      exact hsettled (List.mem_append_right _ hname')
  · intro name hname
    rcases List.mem_append.1 hname with hname | hname
    · obtain ⟨c, hc, hcname, hsettled, hlast⟩ := hfirst name hname
      exact ⟨c, hc, hcname, fun h => hsettled (List.mem_append_left _ h), hlast⟩
    · exact exists_of_mem_names (hblockers ▸ hname)

/-- With depth for two waves a pass is resolved by kicks in two waves. -/
theorem exists_waves (racking : Float) (p : Pass)
    (hnames : (s.carriers.members.map (·.name)).Nodup) {depth : Nat}
    (hdepth : s.carriers.members.length < depth) :
    ∃ slot far near, s.Waves racking p slot far near ∧
      ∃ s' : Submission, resolve racking depth s p = s'.emitAll (p.waves slot far near ++ [p]) ∧
        s'.schedule = s.schedule ∧ s'.carriers = s.carriers ∧ s'.kicks = s.kicks := by
  cases hblockers : p.blockers s.carriers racking s.settled with
  | nil =>
    obtain ⟨depth, rfl⟩ := Nat.exists_eq_succ_of_ne_zero (Nat.ne_zero_of_lt hdepth)
    refine ⟨0, [], [], waves_of_blockers_eq_nil hblockers, s.settle [], ?_, rfl, rfl, rfl⟩
    rw [Submission.resolve, hblockers]
    rfl
  | cons b rest =>
    have hb : b ∈ p.blockers s.carriers racking s.settled := hblockers ▸ List.mem_cons_self
    obtain ⟨hyarn, honly⟩ := Pass.onlySlot?_of_mem_blockers hb
    obtain ⟨c, hc, -⟩ := exists_of_mem_names (List.mem_map_of_mem hb)
    have hpos := List.length_pos_of_mem hc
    obtain ⟨depth, rfl⟩ : ∃ d, depth = d + 2 := ⟨depth - 2, by omega⟩
    have hresolve := resolve_eq honly hyarn hblockers depth
    dsimp only at hresolve
    refine ⟨b.slot, _, _, waves_of_blockers_eq_cons hnames honly hblockers,
      (s.settle (b :: rest)).settle ((p.kickFor b.slot b.name).blockers s.carriers racking
        (s.settled ++ (b :: rest).map (·.name))), ?_, rfl, rfl, rfl⟩
    -- All kicks are at the slot of the pass, those for a kick go the way of the pass.
    have hnear : ∀ b' ∈ b :: rest, b'.slot = b.slot := fun b' hb' =>
      Pass.slot_of_mem_blockers honly hyarn (hblockers ▸ hb')
    have hfar : ∀ b' ∈ (p.kickFor b.slot b.name).blockers s.carriers racking
        (s.settled ++ (b :: rest).map (·.name)), b'.slot = b.slot := fun b' =>
      Pass.slot_of_mem_blockers (p.kickFor_onlySlot? b.slot b.name) (List.cons_ne_nil _ _)
    have hback : (p.kickFor b.slot b.name).kickFor b.slot = p.kickTo b.slot p.direction := by
      funext name
      exact p.kickFor_kickFor b.slot b.name name
    have hforth : p.kickFor b.slot = p.kickTo b.slot p.direction.opposite := rfl
    rw [hresolve, emitKicks_eq hfar, emitKicks_eq hnear, hback, hforth, Pass.waves, emitAll_append,
      emitAll_append]
    rfl

theorem carriers_emitAll_kickTo (s : Submission) (p : Pass) (slot : Int) (direction : Direction)
    (names : List String) :
    (s.emitAll (names.map (p.kickTo slot direction))).carriers =
      s.carriers.kickAll names slot direction := by
  rw [← Carriers.foldl_update]
  induction names generalizing s with
  | nil => rfl
  | cons name names ih => exact ih (s.emit (p.kickTo slot direction name))

/-- The pass itself moves no carrier. -/
theorem carriers_emitAll_waves (s : Submission) {p : Pass} (hkick : p.kick = false) (slot : Int)
    (far near : List String) :
    (s.emitAll (p.waves slot far near ++ [p])).carriers =
      (s.carriers.kickAll far slot p.direction).kickAll near slot p.direction.opposite := by
  have hlast : ∀ s : Submission, (s.emitAll [p]).carriers = s.carriers := fun s => by
    simp [emitAll, emit, hkick]
  rw [emitAll_append, hlast, Pass.waves, emitAll_append, carriers_emitAll_kickTo,
    carriers_emitAll_kickTo]

end Submission

/-- What kicks make of an active carrier: the one that moves it parks it at the front needle of its
slot, on its side, with the clearance that it needed before. -/
def Carrier.AfterKicks (kicks : List Pass) (c c' : Carrier) : Prop :=
  (∀ k ∈ kicks, c.name ∈ k.carriers → ∃ slot last, k.onlySlot? = some slot ∧ c.last = some last ∧
    c' = { c with last := some ⟨.front slot, k.direction, last.stoppingDistance⟩ }) ∧
  ((∀ k ∈ kicks, c.name ∉ k.carriers) → c' = c)

/-- How a pass is scheduled with kicks. -/
structure Schedule.Cascade (schedule : Schedule) (carriers : Carriers) (racking : Float) (p : Pass)
    (kicks : List Pass) (r : Submission) : Prop where
  /-- The kicks are carried out and then the pass. -/
  emitted : r.schedule = schedule.appendAll (kicks ++ [p])
  /-- No kick joins the pass before it or is joined by the pass behind it. -/
  separate : kicks ≠ [] → r.schedule = ⟨schedule.passes ++ kicks, some p⟩
  /-- Every kick moves another carrier, which has been parked. -/
  kick : ∀ k ∈ kicks, ∃ c ∈ carriers.members, c.name ∉ p.carriers ∧ c.last.isSome = true ∧
    ∃ slot direction, p.onlySlot? = some slot ∧ k = p.kickTo slot direction c.name
  once : (kicks.flatMap (·.carriers)).Nodup
  count : r.kicks = kicks.length
  bound : kicks.length ≤ carriers.members.countP fun c => c.name ∉ p.carriers ∧ c.last.isSome = true
  /-- There is no kick just if the pass lands on no other carrier. -/
  needed : kicks = [] ↔ ∀ c ∈ carriers.members, c.name ∉ p.carriers → ¬p.LandsOn racking c
  declared : r.carriers.declared = carriers.declared ∧
    r.carriers.fromHeader = carriers.fromHeader
  members : List.Forall₂ (Carrier.AfterKicks kicks) carriers.members r.carriers.members

namespace Submission

variable {s : Submission} {p : Pass} {racking : Float} {slot : Int} {far near : List String}

theorem Waves.separate (hkick : p.kick = false) (hopen : ∀ q ∈ s.schedule.openPass, q.kick = false)
    (hne : p.waves slot far near ≠ []) :
    s.schedule.appendAll (p.waves slot far near ++ [p]) =
      ⟨s.schedule.passes ++ p.waves slot far near, some p⟩ := by
  refine Schedule.appendAll_eq_of_isChain ?_ (List.isChain_append.2 ⟨?_, .singleton _, ?_⟩)
  · intro q hq k hk
    rw [List.head?_append_of_ne_nil _ hne] at hk
    exact Pass.absorb?_eq_none_of_kick_ne (by
      simp [hopen q hq, Pass.kick_of_mem_waves (List.mem_of_head? hk)])
  · refine (List.pairwise_of_forall_mem_list ?_).isChain
    intro k hk k' hk'
    obtain ⟨name, -, direction, rfl⟩ := Pass.mem_waves hk
    obtain ⟨name', -, direction', rfl⟩ := Pass.mem_waves hk'
    exact p.kickTo_absorb? slot direction direction' name name'
  · intro k hk q hq
    obtain rfl := Option.some.inj hq
    exact Pass.absorb?_eq_none_of_kick_ne (by
      simp [hkick, Pass.kick_of_mem_waves (List.mem_of_getLast? hk)])

theorem Waves.length_le (h : s.Waves racking p slot far near) :
    (p.waves slot far near).length ≤
      s.carriers.members.countP fun c => c.name ∉ s.settled ∧ c.last.isSome = true := by
  have hsub : far ++ near ⊆ (s.carriers.members.filter fun c =>
      c.name ∉ s.settled ∧ c.last.isSome = true).map (·.name) := by
    intro name hname
    obtain ⟨c, hc, hcname, hother⟩ := h.kicked name hname
    exact List.mem_map.2 ⟨c, List.mem_filter.2 ⟨hc, decide_eq_true hother⟩, hcname⟩
  simpa [Pass.waves, List.countP_eq_length_filter] using (h.once.subperm hsub).length_le

theorem Waves.members (h : s.Waves racking p slot far near)
    (hnames : (s.carriers.members.map (·.name)).Nodup) :
    List.Forall₂ (Carrier.AfterKicks (p.waves slot far near)) s.carriers.members
      ((s.carriers.kickAll far slot p.direction).kickAll near slot
        p.direction.opposite).members := by
  simp only [Carriers.kickAll, List.map_map]
  rw [List.forall₂_map_right_iff, List.forall₂_same]
  intro c hc
  have hparked : c.name ∈ far ++ near → ∃ last, c.last = some last := by
    intro hname
    obtain ⟨c', hc', hsame, -, hlast⟩ := h.kicked c.name hname
    obtain rfl := List.inj_on_of_nodup_map hnames hc' hc hsame
    exact Option.isSome_iff_exists.1 hlast
  have hdisjoint := (List.nodup_append.1 h.once).2.2
  refine ⟨?_, ?_⟩
  · intro k hk hname
    rcases List.mem_append.1 hk with hk | hk
    · obtain ⟨name, hfar, rfl⟩ := List.mem_map.1 hk
      obtain rfl : c.name = name := List.mem_singleton.1 hname
      obtain ⟨last, hlast⟩ := hparked (List.mem_append_left _ hfar)
      have hnear : c.name ∉ near := fun hnear => hdisjoint _ hfar _ hnear rfl
      refine ⟨slot, last, rfl, hlast, ?_⟩
      simp [hfar, hnear, Carrier.kickedTo, hlast, Pass.kickTo, Pass.single]
    · obtain ⟨name, hnear, rfl⟩ := List.mem_map.1 hk
      obtain rfl : c.name = name := List.mem_singleton.1 hname
      obtain ⟨last, hlast⟩ := hparked (List.mem_append_right _ hnear)
      have hfar : c.name ∉ far := fun hfar => hdisjoint _ hfar _ hnear rfl
      refine ⟨slot, last, rfl, hlast, ?_⟩
      simp [hfar, hnear, Carrier.kickedTo, hlast, Pass.kickTo, Pass.single]
  · intro hnone
    have hout : c.name ∉ far ++ near := by
      rw [← Pass.carriers_waves p slot far near, List.mem_flatMap]
      rintro ⟨k, hk, hname⟩
      exact hnone k hk hname
    rw [List.mem_append, not_or] at hout
    simp [hout.1, hout.2]

end Submission

/-- A pass that is no kick, scheduled behind one that is none, is scheduled with kicks as they
should be. Its work stack is worked off in two turns for each pass. -/
theorem Schedule.exists_cascade {schedule : Schedule} {carriers : Carriers} {p : Pass}
    (hopen : ∀ q ∈ schedule.openPass, q.kick = false)
    (hnames : (carriers.members.map (·.name)).Nodup) (hkick : p.kick = false)
    (hvalid : p.validate = .ok ()) (racking : Float) :
    ∃ kicks r, schedule.submit carriers racking p = .ok r ∧
      schedule.Cascade carriers racking p kicks r ∧
      (Submission.turn racking)^[2 * (kicks.length + 1)]
        ([.unresolved p], ⟨schedule, carriers, p.carriers, 0, []⟩) = ([], r) := by
  set s : Submission := ⟨schedule, carriers, p.carriers, 0, []⟩
  obtain ⟨slot, far, near, hwaves, s', hresolve, hschedule, hcarriers, hcount⟩ :=
    Submission.exists_waves (s := s) racking p hnames (Nat.lt_succ_self _)
  set kicks := p.waves slot far near
  set r := Submission.resolve racking (carriers.members.length + 1) s p
  have hcarriers' : r.carriers =
      (carriers.kickAll far slot p.direction).kickAll near slot p.direction.opposite := by
    rw [hresolve, Submission.carriers_emitAll_waves s' hkick, hcarriers]
  have hemitted : r.schedule = schedule.appendAll (kicks ++ [p]) := by
    rw [hresolve, Submission.schedule_emitAll, hschedule]
  have hkicks : r.kicks = kicks.length := by
    have hall : kicks.countP (·.kick) = kicks.length :=
      List.countP_eq_length.2 fun k hk => Pass.kick_of_mem_waves hk
    rw [hresolve, Submission.kicks_emitAll, hcount, List.countP_append, hall]
    simp [s, hkick]
  refine ⟨kicks, r, by rw [submit, hvalid], ?_, ?_⟩
  · exact {
      emitted := hemitted
      separate := fun hne => hemitted.trans (Submission.Waves.separate (s := s) hkick hopen hne)
      kick := by
        intro k hk
        obtain ⟨name, hname, direction, rfl⟩ := Pass.mem_waves hk
        obtain ⟨c, hc, rfl, hother, hlast⟩ := hwaves.kicked name hname
        refine ⟨c, hc, hother, hlast, slot, direction, hwaves.place ?_, rfl⟩
        rintro rfl
        simp [hwaves.first rfl] at hname
      once := by
        rw [Pass.carriers_waves]
        exact hwaves.once
      count := hkicks
      bound := hwaves.length_le
      needed := by
        rw [← hwaves.needed]
        have hfirst := hwaves.first
        simpa [kicks, Pass.waves] using hfirst
      declared := by
        rw [hcarriers']
        exact ⟨rfl, rfl⟩
      members := by
        rw [hcarriers']
        exact hwaves.members hnames }
  · have hdepth : s.unsettled.length < carriers.members.length + 1 :=
      Nat.lt_succ_of_le s.length_unsettled_le
    obtain ⟨n, hwork, hn⟩ := Submission.exists_worksOff_resolve racking p hdepth
    have hturns : n = 2 * (kicks.length + 1) := by
      rw [hkick] at hn
      change n + 2 * 0 = 2 * r.kicks + 2 at hn
      omega
    rw [← hturns]
    exact hwork []

end Knitting
