import Knitting.Proofs.Machine.Reach
import Knitting.Proofs.Needle.Slot

set_option autoImplicit false

/-! # Groups that wait for their first stitch

A group that was brought in waits for its first stitch as a whole: whoever waits has not been parked
yet, and the others of its group wait for the same (`Carriers.Grouped`). So of the carriers that are
used together it does not matter which is asked what it waits for (`Machine.canUse_iff`). -/

namespace Knitting

/-! ## Letting a group wait no longer -/

namespace Carriers

theorem get?_update {f : Carrier → Carrier} (hf : ∀ c, (f c).name = c.name) (t : Carriers)
    (name k : String) :
    (t.update name f).get? k = (t.get? k).map fun c => if k = name then f c else c := by
  have hname : ∀ c, (if c.name = name then f c else c).name = c.name := by
    intro c
    split
    · exact hf c
    · rfl
  have hget := get?_mapMembers hname t k
  rw [update, ← mapMembers, hget]
  cases hk : t.get? k with
  | none => rfl
  | some c => rw [Option.map_some, Option.map_some, name_of_get? hk]

end Carriers

namespace Machine

theorem takeOne_get? (s : Carriers × Option PendingIn) (name k : String) :
    (takeOne s name).1.get? k =
      (s.1.get? k).map fun c => if k = name then { c with pending := none } else c := by
  unfold takeOne
  split
  · next hnone =>
    by_cases hk : k = name
    · subst hk
      cases hget : s.1.get? k with
      | none => rfl
      | some c =>
        have hpending : c.pending = none := by simpa [hget] using hnone
        simp [← hpending]
    · simp [hk]
  · exact Carriers.get?_update (f := fun c => { c with pending := none }) (fun _ => rfl) _ _ _

/-- The carriers of a group wait no longer, the others go on waiting. -/
theorem get?_takePending (t : Carriers) (names : List String) (k : String) :
    (takePending t names).1.get? k =
      (t.get? k).map fun c => if k ∈ names then { c with pending := none } else c := by
  have hfold : ∀ (names : List String) (s : Carriers × Option PendingIn),
      (names.foldl takeOne s).1.get? k =
        (s.1.get? k).map fun c => if k ∈ names then { c with pending := none } else c := by
    intro names
    induction names with
    | nil => simp
    | cons name names ih =>
      intro s
      rw [List.foldl_cons, ih, takeOne_get?, Option.map_map]
      congr 1
      funext c
      by_cases hk : k = name
      · simp [hk]
      · simp [hk]
  exact hfold names (t, none)

theorem takeOne_snd_eq_none {s : Carriers × Option PendingIn} {name : String}
    (h : (takeOne s name).2 = none) :
    takeOne s name = s ∧ ∀ c, s.1.get? name = some c → c.pending = none := by
  unfold takeOne at h ⊢
  split at h
  · next hnone =>
    refine ⟨rfl, ?_⟩
    intro c hc
    simpa [hc] using hnone
  · simp at h

theorem takeOne_snd_eq_some {s : Carriers × Option PendingIn} {name : String} {p : PendingIn}
    (h : (takeOne s name).2 = some p) :
    s.2 = some p ∨ ∃ c, s.1.get? name = some c ∧ c.pending = some p := by
  unfold takeOne at h
  split at h
  · exact .inl h
  · next q hsome =>
    obtain rfl := Option.some.inj h
    exact .inr (Option.bind_eq_some_iff.1 hsome)

theorem foldl_takeOne_eq_none {names : List String} {s : Carriers × Option PendingIn}
    (h : (names.foldl takeOne s).2 = none) :
    s.2 = none ∧ ∀ name ∈ names, ∀ c, s.1.get? name = some c → c.pending = none := by
  induction names generalizing s with
  | nil => exact ⟨h, nofun⟩
  | cons name names ih =>
    obtain ⟨hone, hrest⟩ := ih h
    obtain ⟨hsame, hname⟩ := takeOne_snd_eq_none hone
    rw [hsame] at hone hrest
    exact ⟨hone, List.forall_mem_cons.2 ⟨hname, hrest⟩⟩

theorem foldl_takeOne_eq_some {names : List String} {s : Carriers × Option PendingIn}
    {p : PendingIn} (h : (names.foldl takeOne s).2 = some p) :
    s.2 = some p ∨ ∃ name ∈ names, ∃ c, s.1.get? name = some c ∧ c.pending = some p := by
  induction names generalizing s with
  | nil => exact .inl h
  | cons name names ih =>
    rcases ih h with hone | ⟨other, hother, c, hc, hpending⟩
    · exact (takeOne_snd_eq_some hone).imp_right fun ⟨c, hc⟩ => ⟨name, List.mem_cons_self, c, hc⟩
    · -- Who still waits has not been let go.
      rw [takeOne_get?] at hc
      obtain ⟨c', hc', rfl⟩ := Option.map_eq_some_iff.1 hc
      refine .inr ⟨other, List.mem_cons_of_mem _ hother, c', hc', ?_⟩
      split at hpending
      · simp at hpending
      · exact hpending

/-- What a group waited for is nothing if none of it waited, and else what one of it waited for. -/
theorem takePending_spec (t : Carriers) (names : List String) :
    ((takePending t names).2 = none →
      ∀ name ∈ names, ∀ c, t.get? name = some c → c.pending = none) ∧
    ∀ p, (takePending t names).2 = some p →
      ∃ name ∈ names, ∃ c, t.get? name = some c ∧ c.pending = some p :=
  ⟨fun h => (foldl_takeOne_eq_none h).2,
    fun _ h => (foldl_takeOne_eq_some h).resolve_left nofun⟩

end Machine

/-! ## Groups -/

namespace Carriers

/-- A carrier waits for the first stitch of a group. -/
def Waits (t : Carriers) (name : String) (p : PendingIn) : Prop :=
  ∃ c, t.get? name = some c ∧ c.pending = some p

/-- The carriers between two instructions: those that are active are declared, and whoever waits for
its first stitch has not been parked and belongs to a group that waits for the same. -/
structure Grouped (t : Carriers) : Prop where
  declared : ∀ name, t.isActive name = true → name ∈ t.declared
  unparked : ∀ name c, t.get? name = some c → c.pending ≠ none → c.last = none
  own : ∀ name p, t.Waits name p → name ∈ p.carriers
  group : ∀ name p, t.Waits name p → ∀ other ∈ p.carriers, t.Waits other p

/-- A group can be used: all of it is active, and whoever of it waits for a first stitch waits for
that of exactly this group, in this order. -/
def CanUse (t : Carriers) (names : List String) : Prop :=
  ∀ name ∈ names, ∃ c, t.get? name = some c ∧ ∀ p ∈ c.pending, p.carriers = names

instance (t : Carriers) (names : List String) : Decidable (t.CanUse names) :=
  inferInstanceAs (Decidable (∀ name ∈ names, ∃ c ∈ t.get? name, ∀ p ∈ c.pending, _))

variable {t t' : Carriers} {names : List String}

theorem CanUse.isActive (h : t.CanUse names) : ∀ name ∈ names, t.isActive name = true := by
  intro name hname
  obtain ⟨c, hc, -⟩ := h name hname
  exact isActive_iff.2 ⟨c, hc⟩

theorem CanUse.carriers_eq (h : t.CanUse names) {name : String} (hname : name ∈ names)
    {p : PendingIn} (hwaits : t.Waits name p) : p.carriers = names := by
  obtain ⟨c, hc, hp⟩ := h name hname
  obtain ⟨c', hc', hpending⟩ := hwaits
  obtain rfl := Option.some.inj (hc.symm.trans hc')
  exact hp p hpending

/-! ### Who waits after an operation -/

theorem waits_congr (hmembers : t'.members = t.members) : t'.Waits = t.Waits := by
  unfold Waits get?
  rw [hmembers]

/-- A carrier waits for one thing. -/
theorem Waits.unique {name : String} {p q : PendingIn} (hp : t.Waits name p) (hq : t.Waits name q) :
    p = q := by
  obtain ⟨c, hc, hcp⟩ := hp
  obtain ⟨d, hd, hdq⟩ := hq
  obtain rfl := Option.some.inj (hc.symm.trans hd)
  exact Option.some.inj (hcp.symm.trans hdq)

theorem waits_bringIn {kind : InKind} (hin : t.bringIn kind names = .ok t') (k : String)
    (p : PendingIn) : t'.Waits k p ↔ if k ∈ names then p = ⟨kind, names⟩ else t.Waits k p := by
  unfold Waits
  rw [(bringIn_spec hin).2.2]
  split
  · simp [eq_comm]
  · rfl

theorem waits_removeAll (t : Carriers) (names : List String) (k : String) (p : PendingIn) :
    (t.removeAll names).Waits k p ↔ k ∉ names ∧ t.Waits k p := by
  unfold Waits
  rw [get?_removeAll]
  split
  · next hmem => simp [hmem]
  · next hmem => simp [hmem]

/-- Whoever has been parked does not wait. -/
theorem Grouped.not_waits (h : t.Grouped) {name : String} {c : Carrier} (hc : t.get? name = some c)
    (hlast : c.last.isSome = true) (p : PendingIn) : ¬t.Waits name p := by
  rintro ⟨d, hd, hpending⟩
  obtain rfl := Option.some.inj (hc.symm.trans hd)
  rw [h.unparked name c hc (by simp [hpending])] at hlast
  simp at hlast

theorem Moved.waits_iff (h : t.Moved t') (k : String) (p : PendingIn) :
    t'.Waits k p ↔ t.Waits k p := by
  obtain ⟨f, hf, rfl⟩ := h
  unfold Waits
  rw [get?_mapMembers fun c => (hf c).1]
  simp [hf]

/-! ### Groups after an operation -/

theorem grouped_of_members_eq_nil (h : t.members = []) : t.Grouped := by
  have hget : ∀ k, t.get? k = none := fun k => by simp [get?, h]
  exact ⟨by simp [isActive, hget], by simp [hget], by simp [Waits, hget], by simp [Waits, hget]⟩

/-- More may be declared. -/
theorem Grouped.declare (h : t.Grouped) (hmembers : t'.members = t.members)
    (hdeclared : t.declared ⊆ t'.declared) : t'.Grouped := by
  have hget : t'.get? = t.get? := by
    funext k
    simp [get?, hmembers]
  refine ⟨fun name hname => hdeclared (h.declared name ?_), ?_, ?_, ?_⟩
  · simpa only [isActive, hget] using hname
  · simpa only [hget] using h.unparked
  · simpa only [waits_congr hmembers] using h.own
  · simpa only [waits_congr hmembers] using h.group

theorem Grouped.bringIn (h : t.Grouped) {kind : InKind} (hin : t.bringIn kind names = .ok t') :
    t'.Grouped := by
  obtain ⟨hdeclared, -, hget⟩ := bringIn_spec hin
  have hnew : ∀ name ∈ names, t.get? name = none := fun name hname =>
    isActive_eq_false_iff.1 ((exists_bringIn_eq_ok_iff.1 ⟨t', hin⟩).1 name hname)
  have hwaits := waits_bringIn hin
  refine ⟨?_, ?_, ?_, ?_⟩
  · intro name hname
    rw [hdeclared, mem_appendNew]
    by_cases hmem : name ∈ names
    · exact .inr hmem
    · rw [isActive, hget, if_neg hmem] at hname
      exact .inl (h.declared name hname)
  · intro name c hc hpending
    rw [hget] at hc
    split at hc
    · obtain rfl := Option.some.inj hc
      rfl
    · exact h.unparked name c hc hpending
  · intro name p hp
    rw [hwaits] at hp
    split at hp
    · next hmem => exact hp ▸ hmem
    · exact h.own name p hp
  · intro name p hp other hother
    rw [hwaits] at hp ⊢
    split at hp
    · subst hp
      rw [if_pos hother]
    · -- Those of an older group were active before.
      have hold := h.group name p hp other hother
      rw [if_neg fun hmem => ?_]
      · exact hold
      · obtain ⟨c, hc, -⟩ := hold
        simp [hnew other hmem] at hc

/-- Some carriers wait no longer, and no group waits in part. -/
theorem Grouped.release (h : t.Grouped) (names : List String)
    (hdeclared : ∀ name, t'.isActive name = true → name ∈ t'.declared)
    (hunparked : ∀ name c, t'.get? name = some c → c.pending ≠ none → c.last = none)
    (hwaits : ∀ name p, t'.Waits name p ↔ name ∉ names ∧ t.Waits name p)
    (hwhole : ∀ name p, name ∉ names → t.Waits name p → ∀ other ∈ p.carriers, other ∉ names) :
    t'.Grouped := by
  refine ⟨hdeclared, hunparked, ?_, ?_⟩
  · intro name p hp
    exact h.own name p ((hwaits name p).1 hp).2
  · intro name p hp other hother
    obtain ⟨hname, hold⟩ := (hwaits name p).1 hp
    exact (hwaits other p).2
      ⟨hwhole name p hname hold other hother, h.group name p hold other hother⟩

theorem Grouped.removeAll (h : t.Grouped)
    (hparked : ∀ name ∈ names, ∃ c, t.get? name = some c ∧ c.last.isSome = true) :
    (t.removeAll names).Grouped := by
  have hget := get?_removeAll t names
  refine h.release names ?_ ?_ (waits_removeAll t names) ?_
  · intro name hname
    rw [(removeAll_declared t names).1]
    rw [isActive, hget] at hname
    split at hname
    · simp at hname
    · exact h.declared name hname
  · intro name c hc hpending
    rw [hget] at hc
    split at hc
    · simp at hc
    · exact h.unparked name c hc hpending
  · intro name p _ hp other hother hmem
    obtain ⟨c, hc, hlast⟩ := hparked other hmem
    exact h.not_waits hc hlast p (h.group name p hp other hother)

theorem Grouped.moved (h : t.Grouped) (hmoved : t.Moved t') : t'.Grouped := by
  have hwaits := hmoved.waits_iff
  obtain ⟨f, hf, rfl⟩ := hmoved
  have hname : ∀ c, (f c).name = c.name := fun c => (hf c).1
  refine ⟨?_, ?_, ?_, ?_⟩
  · intro name hactive
    exact h.declared name (by rwa [isActive_mapMembers hname] at hactive)
  · intro name c hc hpending
    rw [get?_mapMembers hname] at hc
    obtain ⟨c', hc', rfl⟩ := Option.map_eq_some_iff.1 hc
    rw [(hf c').2.1] at hpending
    have hlast := (hf c').2.2
    rw [h.unparked name c' hc' hpending] at hlast
    simpa using hlast
  · simpa only [hwaits] using h.own
  · simpa only [hwaits] using h.group

end Carriers

namespace Machine

open Carriers

variable {t : Carriers} {names : List String}

/-- A group can be used just if all of it is active and what it waited for, if anything, is
itself. -/
theorem canUse_iff (h : t.Grouped) :
    t.CanUse names ↔ (∀ name ∈ names, t.isActive name = true) ∧
      ∀ p, (takePending t names).2 = some p → p.carriers = names := by
  obtain ⟨hnone, hsome⟩ := takePending_spec t names
  constructor
  · intro huse
    refine ⟨huse.isActive, ?_⟩
    intro p hp
    obtain ⟨name, hname, hwaits⟩ := hsome p hp
    exact huse.carriers_eq hname hwaits
  · rintro ⟨hactive, hgroup⟩ name hname
    obtain ⟨c, hc⟩ := isActive_iff.1 (hactive name hname)
    refine ⟨c, hc, ?_⟩
    cases hp : (takePending t names).2 with
    | none => simp [hnone hp name hname c hc]
    | some p =>
      -- One of the group waits for it, and so all of it do.
      obtain ⟨other, hother, hwaits⟩ := hsome p hp
      have hnames := hgroup p hp
      obtain ⟨c', hc', hpending⟩ := h.group other p hwaits name (hnames ▸ hname)
      obtain rfl := Option.some.inj (hc.symm.trans hc')
      simpa [hpending] using hnames

theorem exists_use_eq_ok_iff (h : t.Grouped) (p : Pass) :
    (∃ t' p', use t names p = (t', .ok p')) ↔ t.CanUse names := by
  rw [canUse_iff h]
  constructor
  · rintro ⟨t', p', huse⟩
    obtain ⟨hactive, -, ⟨hnone, -⟩ | ⟨pending, hsome, hgroup, -⟩⟩ := use_eq_ok_iff.1 huse
    · exact ⟨hactive, by simp [hnone]⟩
    · exact ⟨hactive, by simpa [hsome] using hgroup⟩
  · rintro ⟨hactive, hgroup⟩
    cases hpending : (takePending t names).2 with
    | none => exact ⟨_, p, use_eq_ok_iff.2 ⟨hactive, rfl, .inl ⟨hpending, rfl⟩⟩⟩
    | some pending =>
      exact ⟨_, _, use_eq_ok_iff.2
        ⟨hactive, rfl, .inr ⟨pending, hpending, hgroup pending hpending, rfl⟩⟩⟩

theorem get?_used (t : Carriers) (names : List String) (last : LastStitch) (k : String) :
    ((takePending t names).1.park names last).get? k =
      (t.get? k).map fun c => if k ∈ names then ⟨c.name, some last, none⟩ else c := by
  have hname : ∀ c : Carrier,
      (if c.name ∈ names then { c with last := some last } else c).name = c.name := by
    intro c
    split <;> rfl
  rw [park_eq_mapMembers, get?_mapMembers hname, get?_takePending, Option.map_map]
  cases hk : t.get? k with
  | none => rfl
  | some c =>
    by_cases hmem : k ∈ names
    · simp [hmem, name_of_get? hk]
    · simp [hmem, name_of_get? hk]

/-- A group that is used waits no longer, the others go on waiting. -/
theorem waits_used (t : Carriers) (names : List String) (last : LastStitch) (k : String)
    (p : PendingIn) :
    ((takePending t names).1.park names last).Waits k p ↔ k ∉ names ∧ t.Waits k p := by
  unfold Waits
  rw [get?_used]
  by_cases hmem : k ∈ names
  · simp [hmem]
  · simp [hmem]

/-- After its first stitch a group waits no longer, and nobody else waited for it. -/
theorem grouped_used (h : t.Grouped) (huse : t.CanUse names) (last : LastStitch) :
    ((takePending t names).1.park names last).Grouped := by
  have hget := get?_used t names last
  refine h.release names ?_ ?_ (waits_used t names last) ?_
  · intro name hname
    rw [park_eq_mapMembers, declared_mapMembers, (takePending_declared t names).1]
    refine h.declared name ?_
    simpa [isActive, hget] using hname
  · intro name c hc hpending
    rw [hget] at hc
    obtain ⟨c', hc', rfl⟩ := Option.map_eq_some_iff.1 hc
    split at hpending
    · exact absurd rfl hpending
    · next hmem => simpa [hmem] using h.unparked name c' hc' hpending
  · intro name p hname hp other hother hmem
    have hgroup := huse.carriers_eq hmem (h.group name p hp other hother)
    exact hname (hgroup ▸ h.own name p hp)

end Machine

end Knitting
