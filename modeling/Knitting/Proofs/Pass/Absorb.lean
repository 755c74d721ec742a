import Knitting.Proofs.Mirror.Pass
import Knitting.Proofs.Pass.Blocks

set_option autoImplicit false

/-! # When one sweep does the work of two

A pass takes in another one slot by slot, and every slot must come in the order of the sweep so far,
those just taken in among them. The slots of the other pass are taken in ascending order. For a
sweep to the right that is the order in which it comes to them, and without a direction any order
will do. So one sweep does the work of two passes just if the second goes on where the first has
ended (`Pass.Continues`), but for sweeps to the left: there it must have no more than one slot
(`Pass.one_sweep_iff`). -/

namespace Knitting

/-! ## Slots -/

theorem Table.mem_keys_insert {κ ν : Type} [Ord κ] [Std.LawfulEqOrd κ] [Std.TransOrd κ]
    [DecidableEq κ] {t : Table κ ν} {k l : κ} {v : ν} :
    l ∈ (t.insert k v).keys ↔ l = k ∨ l ∈ t.keys := by
  rw [mem_keys_iff, mem_keys_iff, get?_insert]
  split <;> simp [*]

theorem Direction.reaches_opposite {direction : Direction} {a b : Int} :
    direction.opposite.Reaches (-a) (-b) ↔ direction.Reaches a b := by
  cases direction <;> simp [Direction.Reaches, Direction.opposite]

namespace Pass

/-- What one sweep does at a slot where two others do something or nothing. -/
def joinOps? : Option SlotOp → Option SlotOp → Option SlotOp
  | some first, some second => SlotOp.merge? first second
  | some first, none => some first
  | none, second => second

variable {direction : Direction} {slots slots' : Table Int SlotOp} {slot : Int} {op : SlotOp}

/-- A slot is taken in if the sweep comes to it next and can do there what is asked for. -/
theorem addSlot?_eq_some_iff : addSlot? direction slots slot op = some slots' ↔
    (∀ k ∈ slots.keys, direction.Reaches k slot) ∧
      ∃ both, joinOps? (slots.get? slot) (some op) = some both ∧
        slots' = slots.insert slot both := by
  have hadd : addSlot? direction slots slot op = if inSweepOrder direction slots slot then
      (joinOps? (slots.get? slot) (some op)).map (slots.insert slot) else none := by
    unfold addSlot?
    cases slots.get? slot <;> rfl
  rw [hadd, ← inSweepOrder_iff]
  split <;> simp [eq_comm, *]

/-- What the sweep does at each slot after it has taken in some others. -/
theorem get?_addSlots? {l : List (Int × SlotOp)}
    (hl : l.Pairwise fun a b => compare a.1 b.1 = .lt)
    (h : addSlots? direction slots l = some slots') (slot : Int) :
    slots'.get? slot = joinOps? (slots.get? slot) (Table.lookup slot l) := by
  induction l generalizing slots with
  | nil =>
    obtain rfl := Option.some.inj h
    cases slots.get? slot <;> rfl
  | cons e rest ih =>
    obtain ⟨k, op⟩ := e
    obtain ⟨habove, hrest⟩ := List.pairwise_cons.1 hl
    obtain ⟨slots₁, hadd, h⟩ := Option.bind_eq_some_iff.1 h
    obtain ⟨-, both, hboth, rfl⟩ := addSlot?_eq_some_iff.1 hadd
    rw [ih hrest h, Table.get?_insert, Table.lookup]
    simp only [Std.compare_eq_iff_eq]
    split
    · next hslot =>
      -- No later entry has the same slot.
      have hnone : Table.lookup k rest = none := by
        refine Option.eq_none_iff_forall_ne_some.2 ?_
        intro op' hop'
        simpa using habove _ ((Table.lookup_eq_some_iff hrest).1 hop')
      rw [hslot, hnone, hboth]
      rfl
    · rfl

/-- Ascending slots come in the order of a sweep, unless it is one to the left that has more than
one of them. -/
theorem pairwise_reaches_iff {l : List (Int × SlotOp)}
    (hl : l.Pairwise fun a b => compare a.1 b.1 = .lt) :
    l.Pairwise (fun a b => direction.Reaches a.1 b.1) ↔ (direction = .left → l.length ≤ 1) := by
  cases direction with
  | undirected => simp [Direction.Reaches, List.pairwise_iff_forall_sublist]
  | right => simpa [Direction.Reaches] using hl.imp fun h => Int.le_of_lt (Int.compare_eq_lt.1 h)
  | left =>
    rcases l with _ | ⟨a, _ | ⟨b, rest⟩⟩
    · simp
    · simp
    · have hab : a.1 < b.1 := Int.compare_eq_lt.1 (List.rel_of_pairwise_cons hl List.mem_cons_self)
      simp [Direction.Reaches, Int.not_le.2 hab]

/-- Slots are taken in one after the other if each comes next in its turn and the sweep can do there
what is asked for. -/
theorem isSome_addSlots?_iff {l : List (Int × SlotOp)}
    (hl : l.Pairwise fun a b => compare a.1 b.1 = .lt) :
    (addSlots? direction slots l).isSome = true ↔
      (∀ k ∈ slots.keys, ∀ e ∈ l, direction.Reaches k e.1) ∧
      l.Pairwise (fun a b => direction.Reaches a.1 b.1) ∧
      ∀ e ∈ l, (joinOps? (slots.get? e.1) (some e.2)).isSome = true := by
  induction l generalizing slots with
  | nil => simp [addSlots?]
  | cons e rest ih =>
    obtain ⟨k, op⟩ := e
    obtain ⟨habove, hrest⟩ := List.pairwise_cons.1 hl
    have hstep : (addSlots? direction slots ((k, op) :: rest)).isSome = true ↔
        (∀ j ∈ slots.keys, direction.Reaches j k) ∧
          ∃ both, joinOps? (slots.get? k) (some op) = some both ∧
            (addSlots? direction (slots.insert k both) rest).isSome = true := by
      simp only [addSlots?, Option.isSome_iff_exists, Option.bind_eq_bind, Option.bind_eq_some_iff,
        addSlot?_eq_some_iff]
      grind
    -- What is taken in stays out of the way of what is done at the later slots.
    have hlater : ∀ both, (∀ e ∈ rest,
        (joinOps? ((slots.insert k both).get? e.1) (some e.2)).isSome = true) ↔
          ∀ e ∈ rest, (joinOps? (slots.get? e.1) (some e.2)).isSome = true := by
      intro both
      refine forall₂_congr ?_
      intro e he
      have hne : e.1 ≠ k := by
        have hlt := Int.compare_eq_lt.1 (habove e he)
        omega
      rw [Table.get?_insert_of_ne slots both hne]
    rw [hstep, List.forall_mem_cons, List.pairwise_cons, Option.isSome_iff_exists]
    simp only [ih hrest, hlater, Table.mem_keys_insert]
    constructor
    · rintro ⟨hk, both, hboth, hreach, hpairwise, hmerges⟩
      refine ⟨?_, ⟨fun e he => hreach k (.inl rfl) e he, hpairwise⟩, ⟨both, hboth⟩, hmerges⟩
      exact fun j hj => List.forall_mem_cons.2 ⟨hk j hj, hreach j (.inr hj)⟩
    · rintro ⟨hreach, ⟨hrest, hpairwise⟩, ⟨both, hboth⟩, hmerges⟩
      refine ⟨fun j hj => hreach j hj _ List.mem_cons_self, both, hboth, ?_, hpairwise, hmerges⟩
      rintro j (rfl | hj) e he
      · exact hrest e he
      · exact hreach j hj e (List.mem_cons_of_mem _ he)

/-! ## Passes -/

/-- One sweep could do the work of `p` and then that of `q`. Both are sweeps of one sort, the first
does not end by letting go of yarn and the second does not start by bringing yarn in, hook and
gripper have one thing to do at most, the second comes to no slot that the first has gone past, and
what both do at a slot can be done at once. -/
structure Continues (p q : Pass) : Prop where
  notClosed : p.isClosed = false
  bringsNothing : q.bringsIn = false
  kick : p.kick = q.kick
  kind : p.kind = q.kind
  racking : (p.racking == q.racking) = true
  stitch : p.stitch = q.stitch
  direction : p.direction = q.direction
  carriers : p.carriers = q.carriers
  hook : p.hook = none ∨ q.hook = none
  gripper : p.gripper = none ∨ q.gripper = none
  order : ∀ k ∈ p.slots.keys, ∀ l ∈ q.slots.keys, p.direction.Reaches k l
  merges : ∀ slot first second, p.slots.get? slot = some first → q.slots.get? slot = some second →
    ∃ both, SlotOp.merge? first second = some both

/-- A pass is `p` with what `q` does besides: at each slot, by the hook and by the gripper. -/
structure DoesBoth (joined p q : Pass) : Prop where
  slots : ∀ slot, joined.slots.get? slot = joinOps? (p.slots.get? slot) (q.slots.get? slot)
  rest : joined = { p with
    slots := joined.slots, hook := p.hook <|> q.hook, gripper := p.gripper <|> q.gripper }

/-- The sweep the other way over the negated slots. -/
def reversed (p : Pass) : Pass :=
  { p with slots := p.slots.negated, direction := p.direction.opposite }

variable {p q joined joined' : Pass}

theorem merges_iff : (∀ e ∈ q.slots.entries,
      (joinOps? (p.slots.get? e.1) (some e.2)).isSome = true) ↔
    ∀ slot first second, p.slots.get? slot = some first → q.slots.get? slot = some second →
      ∃ both, SlotOp.merge? first second = some both := by
  simp only [Prod.forall, ← Table.get?_eq_some_iff, ← Option.isSome_iff_exists]
  constructor
  · intro h slot first second hfirst hsecond
    have hboth := h slot second hsecond
    rwa [hfirst] at hboth
  · intro h slot second hsecond
    cases hfirst : p.slots.get? slot with
    | none => rfl
    | some first => exact h slot first second hfirst hsecond

/-- One pass takes in another if that goes on with its sweep, and for a sweep to the left if it does
so at one slot. -/
theorem isSome_absorb?_iff : (p.absorb? q).isSome = true ↔
    p.Continues q ∧ (p.direction = .left → q.slots.size ≤ 1) := by
  have horder : (∀ k ∈ p.slots.keys, ∀ e ∈ q.slots.entries, p.direction.Reaches k e.1) ↔
      ∀ k ∈ p.slots.keys, ∀ l ∈ q.slots.keys, p.direction.Reaches k l := by
    simp [Table.keys]
  have hactions : ∀ {β : Type} (a b : Option β), (a.isSome && b.isSome) = false ↔
      a = none ∨ b = none := by
    intro β a b
    cases a <;> cases b <;> simp
  have hslots : (addSlots? p.direction p.slots q.slots.entries).isSome = true ↔ _ :=
    isSome_addSlots?_iff q.slots.ascending
  rw [horder, merges_iff, pairwise_reaches_iff q.slots.ascending] at hslots
  unfold absorb?
  split
  · next hbarred =>
    refine iff_of_false (by simp) ?_
    rintro ⟨h, -⟩
    have hagrees : p.agrees q = true := by
      simp [agrees, h.kick, h.kind, h.racking, h.stitch, h.direction, h.carriers]
    simp [h.notClosed, h.bringsNothing, hagrees, (hactions _ _).2 h.hook,
      (hactions _ _).2 h.gripper] at hbarred
  · next hfree =>
    simp only [Bool.or_eq_true, not_or, Bool.not_eq_true, hactions] at hfree
    obtain ⟨⟨⟨⟨hclosed, hbrings⟩, hagrees⟩, hhook⟩, hgripper⟩ := hfree
    simp only [agrees, Bool.not_eq_false', Bool.and_eq_true, decide_eq_true_eq] at hagrees
    obtain ⟨⟨⟨⟨⟨hkick, hkind⟩, hracking⟩, hstitch⟩, hdirection⟩, hcarriers⟩ := hagrees
    rw [Option.isSome_map, hslots]
    constructor
    · rintro ⟨horder, hleft, hmerges⟩
      exact ⟨⟨hclosed, hbrings, hkick, hkind, hracking, hstitch, hdirection, hcarriers, hhook,
        hgripper, horder, hmerges⟩, hleft⟩
    · rintro ⟨h, hleft⟩
      exact ⟨h.order, hleft, h.merges⟩

theorem DoesBoth.of_absorb? (h : p.absorb? q = some joined) : joined.DoesBoth p q := by
  obtain ⟨-, -, slots, hslots, rfl⟩ := absorb?_eq_some h
  exact ⟨get?_addSlots? q.slots.ascending hslots, rfl⟩

theorem DoesBoth.unique (h : joined.DoesBoth p q) (h' : joined'.DoesBoth p q) :
    joined = joined' := by
  have hslots : joined.slots = joined'.slots :=
    Table.ext_get? fun slot => (h.slots slot).trans (h'.slots slot).symm
  rw [h.rest, h'.rest, hslots]

/-! ## The other way round -/

theorem mem_keys_negated {slots : Table Int SlotOp} {k : Int} :
    k ∈ slots.negated.keys ↔ -k ∈ slots.keys := by
  rw [Table.mem_keys_iff, Table.mem_keys_iff, Table.get?_negated]

theorem size_negated (slots : Table Int SlotOp) : slots.negated.size = slots.size := by
  simp [Table.negated, Table.size]

@[simp] theorem reversed_reversed (p : Pass) : p.reversed.reversed = p := by
  have hslots : p.slots.negated.negated = p.slots := by
    refine Table.ext_get? ?_
    intro slot
    rw [Table.get?_negated, Table.get?_negated, Int.neg_neg]
  simp [reversed, hslots]

theorem Continues.reversed (h : p.Continues q) : p.reversed.Continues q.reversed where
  notClosed := h.notClosed
  bringsNothing := h.bringsNothing
  kick := h.kick
  kind := h.kind
  racking := h.racking
  stitch := h.stitch
  direction := congrArg Direction.opposite h.direction
  carriers := h.carriers
  hook := h.hook
  gripper := h.gripper
  order := by
    intro k hk l hl
    have hreaches := h.order _ (mem_keys_negated.1 hk) _ (mem_keys_negated.1 hl)
    rwa [← Direction.reaches_opposite, Int.neg_neg, Int.neg_neg] at hreaches
  merges := by
    intro slot first second hfirst hsecond
    exact h.merges (-slot) first second (by rwa [← Table.get?_negated])
      (by rwa [← Table.get?_negated])

theorem reversed_continues_iff : p.reversed.Continues q.reversed ↔ p.Continues q := by
  refine ⟨fun h => ?_, Continues.reversed⟩
  rw [← p.reversed_reversed, ← q.reversed_reversed]
  exact h.reversed

theorem DoesBoth.reversed (h : joined.DoesBoth p q) :
    joined.reversed.DoesBoth p.reversed q.reversed := by
  refine ⟨?_, ?_⟩
  · intro slot
    simp only [Pass.reversed, Table.get?_negated]
    exact h.slots (-slot)
  · have hdirection : joined.direction = p.direction := by rw [h.rest]
    rw [Pass.reversed, Pass.reversed, hdirection, h.rest]
    rfl

/-- Two passes the other way round are joined as they are this way round just if both ways or
neither way there is one sweep for them. -/
theorem absorb?_reversed_iff : p.reversed.absorb? q.reversed = (p.absorb? q).map reversed ↔
    ((p.reversed.absorb? q.reversed).isSome = true ↔ (p.absorb? q).isSome = true) := by
  cases hjoined : p.absorb? q with
  | none => simp
  | some joined =>
    cases hjoined' : p.reversed.absorb? q.reversed with
    | none => simp
    | some joined' =>
      have hsame := (DoesBoth.of_absorb? hjoined').unique (DoesBoth.of_absorb? hjoined).reversed
      simp [hsame]

/-! ## One sweep for two passes -/

/-- When one sweep does the work of two passes, and that it does all of it and nothing else. But for
sweeps to the left with more than one new slot these are all passes that one sweep could do, so the
answer is the same the other way round unless the second pass goes on with a sweep in a direction at
more than one slot. If one sweep does not do both, the first pass is closed as it is. -/
theorem one_sweep_iff (p q : Pass) :
    ((p.absorb? q).isSome = true ↔ p.Continues q ∧ (p.direction = .left → q.slots.size ≤ 1)) ∧
    (∀ joined, p.absorb? q = some joined → joined.DoesBoth p q) ∧
    (p.reversed.absorb? q.reversed = (p.absorb? q).map reversed ↔
      ¬(p.Continues q ∧ p.direction ≠ .undirected ∧ 1 < q.slots.size)) ∧
    ∀ closed, p.absorb? q = none →
      Schedule.append ⟨closed, some p⟩ q = (⟨closed ++ [p], some q⟩, []) := by
  refine ⟨isSome_absorb?_iff, fun _ => DoesBoth.of_absorb?, ?_, ?_⟩
  · have hsize : q.reversed.slots.size = q.slots.size := size_negated q.slots
    have hdirection : p.reversed.direction = .left ↔ p.direction = .right := by
      cases h : p.direction <;> simp [reversed, Direction.opposite, h]
    rw [absorb?_reversed_iff, isSome_absorb?_iff, isSome_absorb?_iff, reversed_continues_iff, hsize,
      hdirection]
    cases p.direction <;> simp
  · intro closed hnone
    simp [Schedule.append, hnone]

/-- To the left the second of these passes goes on with the first at two slots and is refused. The
other way round it is taken in. -/
theorem two_slots_leftward_refused :
    let p : Pass :=
      ⟨.knitTuck, Table.ofList [(3, .knitFront)], 0, 5, .left, ["1"], none, none, false⟩
    let q : Pass := { p with slots := Table.ofList [(1, .knitFront), (2, .knitFront)] }
    p.Continues q ∧ (p.absorb? q).isSome = false ∧
      (p.reversed.absorb? q.reversed).isSome = true := by
  intro p q
  have hp : p.slots.entries = [(3, .knitFront)] := rfl
  have hq : q.slots.entries = [(1, .knitFront), (2, .knitFront)] := rfl
  refine ⟨⟨rfl, rfl, rfl, rfl, by decide, rfl, rfl, rfl, .inl rfl, .inl rfl, ?_, ?_⟩, by decide,
    by decide⟩
  · change ∀ k ∈ p.slots.keys, ∀ l ∈ q.slots.keys, l ≤ k
    simp [Table.keys, hp, hq]
  · -- They share no slot.
    intro slot first second hfirst hsecond
    rw [Table.get?_eq_some_iff, hp] at hfirst
    rw [Table.get?_eq_some_iff, hq] at hsecond
    simp only [List.mem_cons, Prod.mk.injEq, List.not_mem_nil, or_false] at hfirst hsecond
    omega

end Pass

end Knitting
