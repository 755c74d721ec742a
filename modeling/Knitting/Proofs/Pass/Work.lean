import Knitting.Proofs.Carrier.Table
import Knitting.Proofs.Pass.Kicks

set_option autoImplicit false

/-! # The work on a pass

Kicks are worked off from a stack: before a pass comes what is in its way, and before that what is
in the way of the kick. A carrier is settled as soon as it is found in the way, so the carriers that
are not settled bound the work, and the depth to which `Submission.resolve` goes is never reached
(`Submission.exists_worksOff_resolve`). -/

namespace Knitting

/-! ## What is in the way -/

namespace Pass

variable {p : Pass} {carriers : Carriers} {racking : Float} {settled : List String}

@[simp] theorem kickFor_kick (p : Pass) (slot : Int) (name : String) :
    (p.kickFor slot name).kick = true := rfl

/-- A carrier is parked where the carriage comes to rest after a pass with yarn at a single slot. -/
def LandsOn (p : Pass) (racking : Float) (c : Carrier) : Prop :=
  p.carriers ≠ [] ∧ ∃ slot ∈ p.onlySlot?, c.InZone racking slot p.direction

theorem landsOn_iff {slot : Int} (honly : p.onlySlot? = some slot) (hyarn : p.carriers ≠ [])
    {c : Carrier} : p.LandsOn racking c ↔ c.InZone racking slot p.direction := by
  simp [LandsOn, honly, hyarn]

/-- Only a pass with yarn at a single slot finds anything in its way. -/
theorem onlySlot?_of_mem_blockers {b : Blocker} (hb : b ∈ p.blockers carriers racking settled) :
    p.carriers ≠ [] ∧ p.onlySlot? = some b.slot := by
  cases honly : p.onlySlot? with
  | none => simp [blockers, honly] at hb
  | some slot =>
    have hyarn : p.carriers ≠ [] := fun h => by simp [blockers, honly, h] at hb
    exact ⟨hyarn, by rw [slot_of_mem_blockers honly hyarn hb]⟩

/-- What is in the way of a pass are the carriers that it lands on and that are not settled. -/
theorem mem_names_blockers_iff_landsOn {name : String} :
    name ∈ (p.blockers carriers racking settled).map (·.name) ↔
      ∃ c ∈ carriers.members, c.name = name ∧ c.name ∉ settled ∧ p.LandsOn racking c := by
  constructor
  · intro h
    obtain ⟨b, hb, rfl⟩ := List.mem_map.1 h
    obtain ⟨hyarn, honly⟩ := onlySlot?_of_mem_blockers hb
    simpa only [landsOn_iff honly hyarn] using (mem_names_blockers_iff honly hyarn).1 h
  · rintro ⟨c, hc, hname, hsettled, hyarn, slot, honly, hzone⟩
    exact (mem_names_blockers_iff honly hyarn).2 ⟨c, hc, hname, hsettled, hzone⟩

theorem blockers_eq_nil_iff_landsOn :
    p.blockers carriers racking settled = [] ↔
      ∀ c ∈ carriers.members, c.name ∉ settled → ¬p.LandsOn racking c := by
  rw [← List.map_eq_nil_iff (f := (·.name)), List.eq_nil_iff_forall_not_mem]
  simp only [mem_names_blockers_iff_landsOn]
  grind

/-- No carrier is in the way of a pass twice. -/
theorem nodup_names_blockers (hnames : (carriers.members.map (·.name)).Nodup) :
    ((p.blockers carriers racking settled).map (·.name)).Nodup := by
  unfold blockers
  split
  · exact List.nodup_nil
  · split
    · exact List.nodup_nil
    · have hactive : carriers.active.Pairwise fun c d => c.name ≠ d.name :=
        ((List.mergeSort_perm ..).pairwise_iff Ne.symm).2 (List.pairwise_map.1 hnames)
      rw [List.Nodup, List.pairwise_map, List.pairwise_filterMap]
      refine (hactive.filter _).imp ?_
      intro c d hne b hb b' hb'
      simp only [Option.bind_eq_bind, Option.bind_eq_some_iff, Option.ite_none_right_eq_some,
        Option.some.injEq] at hb hb'
      obtain ⟨-, -, -, rfl⟩ := hb
      obtain ⟨-, -, -, rfl⟩ := hb'
      exact hne

end Pass

/-! ## Carriers that are moved -/

namespace Carriers

/-- Carriers are moved and nothing else: each keeps what it waits for, and it has been parked just
if it was before. -/
def Moved (t t' : Carriers) : Prop :=
  ∃ f : Carrier → Carrier, (∀ c, (f c).name = c.name ∧ (f c).pending = c.pending ∧
    (f c).last.isSome = c.last.isSome) ∧ t' = t.mapMembers f

variable {t t' t'' : Carriers}

theorem Moved.refl (t : Carriers) : t.Moved t :=
  ⟨fun c => c, fun _ => ⟨rfl, rfl, rfl⟩, t.mapMembers_id.symm⟩

theorem Moved.trans (h : t.Moved t') (h' : t'.Moved t'') : t.Moved t'' := by
  obtain ⟨f, hf, rfl⟩ := h
  obtain ⟨g, hg, rfl⟩ := h'
  refine ⟨fun c => g (f c), ?_, mapMembers_mapMembers ..⟩
  intro c
  obtain ⟨hname, hpending, hlast⟩ := hg (f c)
  obtain ⟨hname', hpending', hlast'⟩ := hf c
  exact ⟨hname.trans hname', hpending.trans hpending', hlast.trans hlast'⟩

theorem Moved.names (h : t.Moved t') : t'.members.map (·.name) = t.members.map (·.name) := by
  obtain ⟨f, hf, rfl⟩ := h
  exact names_mapMembers (fun c => (hf c).1) t

theorem Moved.declared (h : t.Moved t') :
    t'.declared = t.declared ∧ t'.fromHeader = t.fromHeader := by
  obtain ⟨f, -, rfl⟩ := h
  exact ⟨rfl, rfl⟩

theorem moved_afterKick (t : Carriers) (kick : Pass) : t.Moved (t.afterKick kick) := by
  cases honly : kick.onlySlot? with
  | none =>
    simp only [afterKick, honly]
    exact .refl t
  | some slot =>
    rw [afterKick_eq honly]
    refine ⟨_, ?_, rfl⟩
    intro c
    split
    · exact ⟨rfl, rfl, by simp [Carrier.kickedTo]⟩
    · exact ⟨rfl, rfl, rfl⟩

end Carriers

/-! ## The work stack -/

namespace Submission

/-- A pass that is still to be carried out. -/
inductive Work where
  /-- What is in its way has still to be found. -/
  | unresolved (p : Pass)
  /-- What was in its way has been moved. -/
  | ready (p : Pass)

/-- One turn of the work on a stack of passes. The topmost is carried out, or what is in its way is
settled and the kicks for it go on top. -/
def turn (racking : Float) : List Work × Submission → List Work × Submission
  | ([], s) => ([], s)
  | (.ready p :: rest, s) => (rest, s.emit p)
  | (.unresolved p :: rest, s) =>
    let blockers := p.blockers s.carriers racking s.settled
    ((blockers.map fun b => .unresolved (p.kickFor b.slot b.name)) ++ .ready p :: rest,
      s.settle blockers)

/-- The active carriers that can still be kicked. -/
def unsettled (s : Submission) : List String :=
  (s.carriers.members.map (·.name)).filter fun name => !s.settled.contains name

theorem length_unsettled_le (s : Submission) : s.unsettled.length ≤ s.carriers.members.length := by
  simpa [unsettled] using List.length_filter_le (fun name => !s.settled.contains name)
    (s.carriers.members.map (·.name))

/-- While a pass is scheduled carriers are only moved, and what is settled stays so. -/
structure Grows (s s' : Submission) : Prop where
  moved : s.carriers.Moved s'.carriers
  settled : s.settled ⊆ s'.settled

variable {s s' s'' : Submission} {p : Pass} {racking : Float}

theorem Grows.refl (s : Submission) : s.Grows s := ⟨.refl _, List.Subset.refl _⟩

theorem Grows.trans (h : s.Grows s') (h' : s'.Grows s'') : s.Grows s'' :=
  ⟨h.moved.trans h'.moved, List.Subset.trans h.settled h'.settled⟩

theorem grows_emit (s : Submission) (p : Pass) : s.Grows (s.emit p) := by
  refine ⟨?_, List.Subset.refl _⟩
  simp only [emit]
  split
  · exact Carriers.moved_afterKick s.carriers p
  · exact .refl _

theorem grows_settle (s : Submission) (blockers : List Blocker) : s.Grows (s.settle blockers) :=
  ⟨.refl _, List.subset_append_left ..⟩

theorem grows_foldl {ι : Type} {f : Submission → ι → Submission}
    (hf : ∀ (s : Submission) (i : ι), s.Grows (f s i)) (is : List ι) (s : Submission) :
    s.Grows (is.foldl f s) := by
  induction is generalizing s with
  | nil => exact .refl s
  | cons i is ih => exact (hf s i).trans (ih (f s i))

theorem grows_resolve (depth : Nat) (s : Submission) (p : Pass) :
    s.Grows (resolve racking depth s p) := by
  induction depth generalizing s p with
  | zero => exact grows_emit s p
  | succ depth ih =>
    have hkicks : ∀ (s : Submission) (b : Blocker),
        s.Grows (resolve racking depth s (p.kickFor b.slot b.name)) := fun s _ => ih s _
    exact (grows_settle s _).trans ((grows_foldl hkicks _ _).trans (grows_emit _ p))

theorem Grows.length_unsettled_le (h : s.Grows s') :
    s'.unsettled.length ≤ s.unsettled.length := by
  unfold unsettled
  rw [h.moved.names, ← List.countP_eq_length_filter, ← List.countP_eq_length_filter]
  refine List.countP_mono_left ?_
  intro name _ hname
  simp only [Bool.not_eq_true', List.contains_eq_mem, decide_eq_false_iff_not] at hname ⊢
  exact fun hs => hname (h.settled hs)

/-- Settling what is in the way of a pass leaves fewer carriers to be kicked. -/
theorem length_unsettled_settle_lt {b : Blocker}
    (hb : b ∈ p.blockers s.carriers racking s.settled) :
    (s.settle (p.blockers s.carriers racking s.settled)).unsettled.length < s.unsettled.length := by
  set blockers := p.blockers s.carriers racking s.settled
  have hname : b.name ∈ blockers.map (·.name) := List.mem_map_of_mem hb
  obtain ⟨c, hc, hcb, hsettled, -⟩ := Pass.mem_names_blockers_iff_landsOn.1 hname
  have hrest : (s.settle blockers).unsettled =
      s.unsettled.filter fun name => !(blockers.map (·.name)).contains name := by
    unfold unsettled
    rw [List.filter_filter]
    refine List.filter_congr ?_
    intro name _
    simp only [settle, List.contains_eq_mem, List.mem_append, Bool.decide_or, Bool.not_or]
    exact Bool.and_comm _ _
  rw [hrest, List.length_filter_lt_length_iff_exists]
  refine ⟨b.name, ?_, by simpa using hname⟩
  rw [unsettled, List.mem_filter]
  exact ⟨List.mem_map.2 ⟨c, hc, hcb⟩, by simpa [← hcb] using hsettled⟩

/-! ### The depth is never reached -/

/-- A number of turns works off what is on top of a stack, whatever lies below. -/
def WorksOff (racking : Float) (turns : Nat) (work : List Work) (s s' : Submission) : Prop :=
  ∀ rest, (turn racking)^[turns] (work ++ rest, s) = (rest, s')

theorem WorksOff.append {m n : Nat} {work work' : List Work} (h : WorksOff racking m work s s')
    (h' : WorksOff racking n work' s' s'') : WorksOff racking (n + m) (work ++ work') s s'' := by
  intro rest
  rw [Function.iterate_add_apply, List.append_assoc, h, h']

theorem worksOff_ready (s : Submission) (p : Pass) :
    WorksOff racking 1 [.ready p] s (s.emit p) := fun _ => rfl

/-- The kicks for a pass on a stack. -/
def kickWork (p : Pass) (blockers : List Blocker) : List Work :=
  blockers.map fun b => .unresolved (p.kickFor b.slot b.name)

theorem worksOff_unresolved {n : Nat}
    (h : WorksOff racking n
      (kickWork p (p.blockers s.carriers racking s.settled) ++ [.ready p])
      (s.settle (p.blockers s.carriers racking s.settled)) s') :
    WorksOff racking (n + 1) [.unresolved p] s s' := by
  intro rest
  have hrest := h rest
  rw [List.append_assoc] at hrest
  rw [Function.iterate_succ_apply]
  exact hrest

theorem kicks_emit (s : Submission) (p : Pass) :
    (s.emit p).kicks = s.kicks + if p.kick then 1 else 0 := by
  unfold emit
  cases p.kick <;> rfl

/-- Passes are worked off one after the other, if each of them can be. -/
theorem exists_worksOff_kickWork {depth : Nat}
    (ih : ∀ (s : Submission) (p : Pass), s.unsettled.length < depth →
      ∃ n, WorksOff racking n [.unresolved p] s (resolve racking depth s p) ∧
        n + 2 * (s.kicks + if p.kick then 1 else 0) = 2 * (resolve racking depth s p).kicks + 2)
    (blockers : List Blocker) (hdepth : blockers ≠ [] → s.unsettled.length < depth) :
    let s' := blockers.foldl (fun s b => resolve racking depth s (p.kickFor b.slot b.name)) s
    ∃ n, WorksOff racking n (kickWork p blockers) s s' ∧ n + 2 * s.kicks = 2 * s'.kicks := by
  induction blockers generalizing s with
  | nil => exact ⟨0, fun _ => rfl, Nat.zero_add _⟩
  | cons b blockers ihBlockers =>
    have hlt := hdepth (List.cons_ne_nil _ _)
    obtain ⟨m, hm, hcount⟩ := ih s (p.kickFor b.slot b.name) hlt
    obtain ⟨n, hn, hcount'⟩ := ihBlockers (s := resolve racking depth s (p.kickFor b.slot b.name))
      fun _ => lt_of_le_of_lt (grows_resolve depth s _).length_unsettled_le hlt
    refine ⟨n + m, hm.append hn, ?_⟩
    rw [Pass.kickFor_kick, if_pos rfl] at hcount
    rw [List.foldl_cons]
    omega

/-- With depth for all that can still be kicked, a pass is resolved as its work is worked off. Each
pass takes two turns, and all but the last are kicks. -/
theorem exists_worksOff_resolve (racking : Float) (p : Pass) {depth : Nat}
    (hdepth : s.unsettled.length < depth) :
    ∃ n, WorksOff racking n [.unresolved p] s (resolve racking depth s p) ∧
      n + 2 * (s.kicks + if p.kick then 1 else 0) = 2 * (resolve racking depth s p).kicks + 2 := by
  induction depth generalizing s p with
  | zero => exact absurd hdepth (Nat.not_lt_zero _)
  | succ depth ih =>
    have hblockers : p.blockers s.carriers racking s.settled ≠ [] →
        (s.settle (p.blockers s.carriers racking s.settled)).unsettled.length < depth := by
      intro hne
      obtain ⟨b, hb⟩ := List.exists_mem_of_ne_nil _ hne
      exact lt_of_lt_of_le (length_unsettled_settle_lt hb) (Nat.le_of_lt_succ hdepth)
    obtain ⟨n, hn, hcount⟩ := exists_worksOff_kickWork (p := p)
      (fun _ p hs => ih p hs) _ hblockers
    refine ⟨1 + n + 1, worksOff_unresolved (hn.append (worksOff_ready _ p)), ?_⟩
    rw [resolve, kicks_emit]
    simp only [settle] at hcount ⊢
    omega

end Submission

end Knitting
