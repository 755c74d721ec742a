import Knitting.Proofs.Machine.Waiting

set_option autoImplicit false

/-! # Legal instructions

What it takes for an instruction to succeed, said once and for all (`Machine.Legal`). An instruction
that was read from a line succeeds just if it is legal, in every machine that a session comes to
without an error (`Machine.execute_succeeds_iff`). -/

namespace Knitting

/-! ## Instructions that can be read -/

/-- The numbers of an instruction are those of a machine: needles have an index, and a racking can
be rounded down. -/
def Instruction.InRange : Instruction → Prop
  | .stitch _ _ n _ => isIndex n.index = true
  | .split _ source target _ => isIndex source.index = true ∧ isIndex target.index = true
  | .rack racking => ∃ shift, (Number.Value.ofFloat racking).floor? = some shift
  | _ => True

/-- What is done one step after the other succeeds if each step does. -/
theorem bind_eq_ok {ε β γ : Type} {x : Except ε β} {f : β → Except ε γ} {c : γ}
    (h : x >>= f = .ok c) : ∃ b, x = .ok b ∧ f b = .ok c := by
  cases x with
  | error e => simp [bind, Except.bind] at h
  | ok b => exact ⟨b, rfl, h⟩

theorem map_eq_ok {ε β γ : Type} {x : Except ε β} {f : β → γ} {c : γ} (h : x.map f = .ok c) :
    ∃ b, x = .ok b ∧ f b = c := by
  cases x with
  | error e => simp [Except.map] at h
  | ok b => exact ⟨b, rfl, Except.ok.inj h⟩

namespace Instruction

/-- What can be read from a line. A stitch and a split have a direction, unless they are without
yarn; the texts of needles and of rackings are those of numbers of a machine. -/
inductive Read : Instruction → Prop
  | bringIn (kind : InKind) (names : List String) : Read (.bringIn kind names)
  | releaseHook (names : List String) : Read (.releaseHook names)
  | takeOut (withHook : Bool) (names : List String) : Read (.takeOut withHook names)
  | stitch (op : StitchOp) {direction : Direction} (hdirection : direction ≠ .undirected)
      {token : String} {n : Needle} (hn : Needle.parse token = .ok n) (names : List String) :
      Read (.stitch op (directed direction names) n names)
  | split {direction : Direction} (hdirection : direction ≠ .undirected) {token token' : String}
      {source target : Needle} (hsource : Needle.parse token = .ok source)
      (htarget : Needle.parse token' = .ok target) (names : List String) :
      Read (.split (directed direction names) source target names)
  | rack {token : String} {racking : Float} (h : Racking.parse token = .ok racking) :
      Read (.rack racking)
  | pause : Read .pause
  | extension (op : String) : Read (.extension op)
  | unsupported (op : String) : Read (.unsupported op)

variable {i : Instruction} {op : String} {direction : Direction} {args : List String} {place : Nat}

theorem read_of_parseStitch {stitchOp : StitchOp} (hdirection : direction ≠ .undirected)
    (h : parseStitch stitchOp op direction args place = .ok i) : i.Read := by
  obtain ⟨token, -, h⟩ := bind_eq_ok h
  obtain ⟨n, hn, h⟩ := bind_eq_ok h
  obtain rfl := Except.ok.inj h
  exact .stitch stitchOp hdirection hn _

theorem read_of_parseSplit (hdirection : direction ≠ .undirected)
    (h : parseSplit op direction args place = .ok i) : i.Read := by
  obtain ⟨token, -, h⟩ := bind_eq_ok h
  obtain ⟨source, hsource, h⟩ := bind_eq_ok h
  obtain ⟨token', -, h⟩ := bind_eq_ok h
  obtain ⟨target, htarget, h⟩ := bind_eq_ok h
  obtain rfl := Except.ok.inj h
  exact .split hdirection hsource htarget _

theorem ne_undirected_of_parseDirection (h : parseDirection op args = .ok direction) :
    direction ≠ .undirected := by
  obtain ⟨token, -, h⟩ := bind_eq_ok h
  unfold Direction.parse Direction.ofSign? at h
  rintro rfl
  split_ifs at h <;> simp at h

theorem read_of_ofWords (h : ofWords op args = .ok i) : i.Read := by
  have hread : ∀ {f : Direction → Except Error Instruction} {op : String},
      (∀ {d : Direction}, d ≠ .undirected → f d = .ok i → i.Read) →
        parseDirection op args >>= f = .ok i → i.Read := by
    intro f op hf h
    obtain ⟨d, hd, h⟩ := bind_eq_ok h
    exact hf (ne_undirected_of_parseDirection hd) h
  have hright : Direction.right ≠ .undirected := nofun
  unfold ofWords at h
  split at h
  case h_6 => exact hread read_of_parseStitch h
  case h_7 => exact hread read_of_parseStitch h
  case h_8 => exact hread read_of_parseStitch h
  case h_9 => exact read_of_parseStitch hright h
  case h_10 => exact read_of_parseStitch hright h
  case h_11 => exact hread read_of_parseSplit h
  case h_12 => exact read_of_parseSplit hright h
  case h_13 =>
    split at h
    · obtain ⟨racking, hracking, rfl⟩ := map_eq_ok h
      exact .rack hracking
    · simp at h
  case h_15 =>
    split at h <;> (obtain rfl := Except.ok.inj h; constructor)
  all_goals (obtain rfl := Except.ok.inj h; constructor)

theorem IsParsed.read (h : i.IsParsed) : i.Read := by
  obtain ⟨line, hline⟩ := h
  unfold parse at hline
  split at hline
  · simp at hline
  · obtain ⟨i', hi', hsome⟩ := map_eq_ok hline
    obtain rfl := Option.some.inj hsome
    exact read_of_ofWords hi'

theorem IsParsed.inRange (h : i.IsParsed) : i.InRange := by
  cases h.read with
  | stitch _ _ hn _ => exact Needle.isIndex_of_parse hn
  | split _ hsource htarget _ =>
    exact ⟨Needle.isIndex_of_parse hsource, Needle.isIndex_of_parse htarget⟩
  | rack hracking => exact Racking.exists_floor_of_parse hracking
  | _ => trivial

end Instruction

/-! ## What it takes to succeed -/

namespace Machine

variable {α : Type}

/-- A needle has a slot under the racking of a machine: the place to which the racking, rounded
down, shifts it is one of the machine's. -/
def HasSlot (m : Machine α) (n : Needle) : Prop :=
  ∃ shift, (Number.Value.ofFloat m.racking).floor? = some shift ∧ isIndex (n.shifted shift) = true

/-- Two needles on opposite sides face each other: the one on the back bed is shifted by the
racking, rounded down, to the index of the one on the front bed. -/
def Faces (m : Machine α) (source target : Needle) : Prop :=
  source.bed.side ≠ target.bed.side ∧ ∃ shift,
    (Number.Value.ofFloat m.racking).floor? = some shift ∧
      source.shifted shift = target.shifted shift

/-- An instruction is legal for a machine. -/
def Legal (m : Machine α) : Instruction → Prop
  | .bringIn kind names =>
    names ≠ [] ∧ (∀ name ∈ names, m.carriers.isActive name = false) ∧
      (m.carriers.fromHeader = true → ∀ name ∈ names, name ∈ m.carriers.declared) ∧
      (kind = .hook → m.hook.held = none)
  | .releaseHook names => m.hook.held = some names
  | .takeOut withHook names =>
    names ≠ [] ∧ (∀ name ∈ names, ∃ c, m.carriers.get? name = some c ∧ c.last.isSome = true) ∧
      (withHook = true → m.hook.held = none)
  | .stitch op _ n names =>
    n.bed.isSlider = false ∧ m.HasSlot n ∧
      (names = [] ∧ op ≠ .miss ∨ names ≠ [] ∧ m.carriers.CanUse names)
  | .split _ source target names =>
    ¬(source.bed.isSlider = true ∧ target.bed.isSlider = true) ∧
      (source.bed.isSlider = true → names = []) ∧ m.Faces source target ∧
      (names = [] ∨ m.carriers.CanUse names)
  | .rack _ => True
  | .pause => True
  | .extension _ => True
  | .unsupported _ => True

instance (m : Machine α) (n : Needle) : Decidable (m.HasSlot n) :=
  inferInstanceAs (Decidable (∃ shift ∈ (Number.Value.ofFloat m.racking).floor?,
    isIndex (n.shifted shift) = true))

instance (m : Machine α) (source target : Needle) : Decidable (m.Faces source target) :=
  inferInstanceAs (Decidable (_ ∧ ∃ shift ∈ (Number.Value.ofFloat m.racking).floor?, _))

instance (m : Machine α) : (i : Instruction) → Decidable (m.Legal i)
  | .bringIn _ _ => inferInstanceAs (Decidable (_ ∧ _))
  | .releaseHook _ => inferInstanceAs (Decidable (_ = _))
  | .takeOut withHook names => inferInstanceAs (Decidable (names ≠ [] ∧
      (∀ name ∈ names, ∃ c ∈ m.carriers.get? name, c.last.isSome = true) ∧
      (withHook = true → m.hook.held = none)))
  | .stitch _ _ _ _ => inferInstanceAs (Decidable (_ ∧ _))
  | .split _ _ _ _ => inferInstanceAs (Decidable (_ ∧ _))
  | .rack _ => .isTrue trivial
  | .pause => .isTrue trivial
  | .extension _ => .isTrue trivial
  | .unsupported _ => .isTrue trivial

variable {m : Machine α}

theorem bringIn_succeeds_iff {kind : InKind} {names : List String} :
    (m.bringIn kind names).Succeeds ↔
      names ≠ [] ∧ (∀ name ∈ names, m.carriers.isActive name = false) ∧
        (m.carriers.fromHeader = true → ∀ name ∈ names, name ∈ m.carriers.declared) ∧
        (kind = .hook → m.hook.held = none) := by
  have hgroup : (∃ t, m.carriers.bringIn kind names = .ok t) ↔
      (∀ name ∈ names, m.carriers.isActive name = false) ∧
        (m.carriers.fromHeader = true → ∀ name ∈ names, name ∈ m.carriers.declared) :=
    Carriers.exists_bringIn_eq_ok_iff
  rw [← and_assoc (c := kind = .hook → m.hook.held = none), ← hgroup, bringIn]
  by_cases hnames : names = []
  · simp [hnames, not_succeeds_fail]
  · rw [if_neg (by simpa using hnames)]
    cases m.carriers.bringIn kind names with
    | error e => simp [not_succeeds_fail]
    | ok t =>
      cases kind with
      | plain => simp [hnames, succeeds_done]
      | hook =>
        cases hheld : m.hook.held <;>
          simp [hnames, succeeds_done, not_succeeds_fail, Hook.hold, hheld]

theorem releaseHook_succeeds_iff {names : List String} :
    (m.releaseHook names).Succeeds ↔ m.hook.held = some names := by
  unfold releaseHook Hook.release
  cases hheld : m.hook.held with
  | none => simp [not_succeeds_fail]
  | some held =>
    by_cases hgroup : held = names
    · simp [hgroup, succeeds_done]
    · simp [hgroup, not_succeeds_fail]

theorem outRefusal?_eq_none_iff {t : Carriers} {names : List String} :
    outRefusal? t names = none ↔
      ∀ name ∈ names, ∃ c, t.get? name = some c ∧ c.last.isSome = true := by
  unfold outRefusal?
  rw [List.findSome?_eq_none_iff]
  refine forall₂_congr ?_
  intro name _
  cases t.get? name with
  | none => simp
  | some c => cases hlast : c.last <;> simp [hlast]

theorem takeOut_succeeds_iff {withHook : Bool} {names : List String} :
    (m.takeOut withHook names).Succeeds ↔
      names ≠ [] ∧ (∀ name ∈ names, ∃ c, m.carriers.get? name = some c ∧ c.last.isSome = true) ∧
        (withHook = true → m.hook.held = none) := by
  rw [← outRefusal?_eq_none_iff]
  unfold takeOut
  by_cases hnames : names = []
  · simp [hnames, not_succeeds_fail]
  · rw [if_neg (by simpa using hnames)]
    cases outRefusal? m.carriers names with
    | some e => simp [not_succeeds_fail]
    | none =>
      dsimp only
      split
      · next held hheld => simp [hheld, not_succeeds_fail]
      · next hbusy =>
        simp only [succeeds_done, true_iff]
        exact ⟨hnames, trivial, fun hhook =>
          Option.eq_none_iff_forall_ne_some.2 fun held => hbusy held hhook⟩

/-! ## Machines in order -/

/-- A machine as a session without errors leaves it. -/
structure Orderly (m : Machine α) : Prop where
  grouped : m.carriers.Grouped
  floor : ∃ shift, (Number.Value.ofFloat m.racking).floor? = some shift

/-- An instruction that was read keeps order. -/
theorem Effect.orderly {i : Instruction} {m' : Machine α} (h : m.Effect i m') (hi : i.InRange)
    (hm : m.Orderly) : m'.Orderly := by
  cases h with
  | idle => exact hm
  | bringIn _ hin _ => exact ⟨hm.grouped.bringIn hin, hm.floor⟩
  | releaseHook => exact ⟨hm.grouped, hm.floor⟩
  | takeOut _ hout _ => exact ⟨hm.grouped.removeAll (outRefusal?_eq_none_iff.1 hout), hm.floor⟩
  | rack => exact ⟨hm.grouped, hi⟩
  | bare _ hsubmit => exact ⟨hm.grouped.moved (Schedule.moved_submit hsubmit), hm.floor⟩
  | yarn _ _ huse hsubmit =>
    have hcan := (exists_use_eq_ok_iff hm.grouped _).1 ⟨_, _, huse⟩
    obtain ⟨-, rfl, -⟩ := use_eq_ok_iff.1 huse
    exact ⟨(grouped_used hm.grouped hcan _).moved (Schedule.moved_submit hsubmit), hm.floor⟩

/-! ## Stitches and splits -/

theorem submit_succeeds_iff {p : Pass} {w : Option Warning} {events : List Event} :
    (m.submit p w events).Succeeds ↔ p.validate = .ok () := by
  unfold submit Schedule.submit
  cases p.validate <;> simp [Step.Succeeds]

/-- An active carrier has a lane, also when it waits no longer. -/
theorem exists_lane_of_canUse {t : Carriers} (h : t.Grouped) {names : List String}
    (huse : t.CanUse names) {name : String} (hname : name ∈ names) :
    ∃ lane, (takePending t names).1.lane? name = some lane := by
  have hdeclared : ((takePending t names).1.declared.idxOf? name).isSome = true := by
    rw [(takePending_declared t names).1, List.isSome_idxOf?]
    exact h.declared name (huse.isActive name hname)
  obtain ⟨i, hi⟩ := Option.isSome_iff_exists.1 hdeclared
  exact ⟨_, by rw [Carriers.lane?, hi]; rfl⟩

/-- Once its group can be used nothing stops a pass with yarn. -/
theorem withYarn_succeeds_iff (hm : m.carriers.Grouped) {leader : String} {rest : List String}
    {direction : Direction} {n : Needle} {kind : PassKind} {slot : Int} {op : SlotOp}
    (hkind : kind.isTransfer = false)
    (work : Fabric α → Lane → Fabric α × Option Warning × List Event) :
    (m.withYarn leader (leader :: rest) direction n
      (m.singlePass kind slot op direction (leader :: rest)) work).Succeeds ↔
      m.carriers.CanUse (leader :: rest) := by
  rw [← exists_use_eq_ok_iff hm (m.singlePass kind slot op direction (leader :: rest)), withYarn]
  constructor
  · intro hsucceeds
    split at hsucceeds
    · exact absurd hsucceeds (not_succeeds_fail _ _)
    · next t p huse => exact ⟨t, p, huse⟩
  · rintro ⟨t, p, huse⟩
    have hcan := (exists_use_eq_ok_iff hm _).1 ⟨t, p, huse⟩
    obtain ⟨lane, hlane⟩ := exists_lane_of_canUse hm hcan List.mem_cons_self
    rw [← (use_eq_ok_iff.1 huse).2.1] at hlane
    simp only [huse, hlane]
    exact submit_succeeds_iff.2 (validate_of_use hkind (List.cons_ne_nil _ _) huse)

/-- Under a racking that can be rounded down a needle has the slot that it should have. -/
theorem exists_slot_eq_ok_iff {n : Needle} (hn : isIndex n.index = true)
    (hfloor : ∃ shift, (Number.Value.ofFloat m.racking).floor? = some shift) :
    (∃ slot, n.slot m.racking = .ok slot) ↔ m.HasSlot n := by
  obtain ⟨shift, hshift⟩ := hfloor
  simp [Needle.slot_eq_ok_iff hn hshift, HasSlot, hshift]

/-- Two needles on opposite sides have the same slot just if they face each other: the place of the
one on the front bed is its index, which is one of the machine's. -/
theorem exists_common_slot_iff {source target : Needle} (hsource : isIndex source.index = true)
    (htarget : isIndex target.index = true) (hside : source.bed.side ≠ target.bed.side)
    (hfloor : ∃ shift, (Number.Value.ofFloat m.racking).floor? = some shift) :
    (∃ slot, source.slot m.racking = .ok slot ∧ target.slot m.racking = .ok slot) ↔
      m.Faces source target := by
  obtain ⟨shift, hshift⟩ := hfloor
  simp only [Needle.slot_eq_ok_iff hsource hshift, Needle.slot_eq_ok_iff htarget hshift, Faces,
    hshift, Option.some.injEq, exists_eq_left', and_iff_right hside, ne_eq]
  constructor
  · rintro ⟨slot, ⟨rfl, -⟩, hslot, -⟩
    exact hslot
  · intro hfaces
    have hfront : isIndex (source.shifted shift) = true := by
      cases hs : source.bed.side with
      | front => simpa [Needle.shifted, hs] using hsource
      | back =>
        cases ht : target.bed.side with
        | front =>
          rw [hfaces]
          simpa [Needle.shifted, ht] using htarget
        | back => exact absurd (hs.trans ht.symm) hside
    exact ⟨_, ⟨rfl, hfront⟩, hfaces, hfaces ▸ hfront⟩

theorem exists_splitKind_eq_ok_iff {source target : Needle} {withYarn : Bool} :
    (∃ kind, splitKind source target withYarn = .ok kind) ↔
      ¬(source.bed.isSlider = true ∧ target.bed.isSlider = true) ∧
        (source.bed.isSlider = true → withYarn = false) := by
  unfold splitKind
  cases source.bed.isSlider <;> cases target.bed.isSlider <;> cases withYarn <;> simp

/-- What it takes for the loops of a needle to be moved to another. -/
theorem exists_splitPlace_eq_ok_iff {source target : Needle} (hsource : isIndex source.index = true)
    (htarget : isIndex target.index = true)
    (hfloor : ∃ shift, (Number.Value.ofFloat m.racking).floor? = some shift) (withYarn : Bool) :
    (∃ kind slot, splitPlace source target m.racking withYarn = .ok (kind, slot)) ↔
      (¬(source.bed.isSlider = true ∧ target.bed.isSlider = true) ∧
        (source.bed.isSlider = true → withYarn = false)) ∧ m.Faces source target := by
  rw [← exists_splitKind_eq_ok_iff]
  simp only [splitPlace_eq_ok_iff]
  constructor
  · rintro ⟨kind, slot, hkind, hside, hslot⟩
    exact ⟨⟨kind, hkind⟩, (exists_common_slot_iff hsource htarget hside hfloor).1 ⟨slot, hslot⟩⟩
  · rintro ⟨⟨kind, hkind⟩, hfaces⟩
    obtain ⟨slot, hslot⟩ := (exists_common_slot_iff hsource htarget hfaces.1 hfloor).2 hfaces
    exact ⟨kind, slot, hkind, hfaces.1, hslot⟩

theorem stitchBare_succeeds_iff {op : StitchOp} {n : Needle} {slot : Int} :
    (m.stitchBare op n slot).Succeeds ↔ op ≠ .miss := by
  unfold stitchBare
  cases op with
  | miss => simp [not_succeeds_fail]
  | tuck => exact iff_of_true (submit_succeeds_iff.2 (Pass.validate_bare rfl rfl rfl)) nofun
  | knit =>
    refine iff_of_true ?_ nofun
    dsimp only
    split
    · exact succeeds_skip ..
    · exact submit_succeeds_iff.2 (Pass.validate_bare rfl rfl rfl)

variable [Scalar α]

theorem stitch_succeeds_iff (hm : m.carriers.Grouped)
    (hfloor : ∃ shift, (Number.Value.ofFloat m.racking).floor? = some shift) {op : StitchOp}
    {direction : Direction} {n : Needle} (hn : isIndex n.index = true) {names : List String} :
    (m.stitch op direction n names).Succeeds ↔
      n.bed.isSlider = false ∧ m.HasSlot n ∧
        (names = [] ∧ op ≠ .miss ∨ names ≠ [] ∧ m.carriers.CanUse names) := by
  rw [← exists_slot_eq_ok_iff hn hfloor]
  cases hbed : n.bed.isSlider with
  | true => simp [stitch, hbed, not_succeeds_fail]
  | false =>
    cases hslot : n.slot m.racking with
    | error e => simp [stitch, hbed, hslot, not_succeeds_fail]
    | ok slot =>
      cases names with
      | nil => simp [stitch, hbed, hslot, stitchBare_succeeds_iff]
      | cons leader rest =>
        rw [stitch_eq_withYarn hbed hslot, withYarn_succeeds_iff hm rfl]
        simp

theorem split_succeeds_iff (hm : m.carriers.Grouped)
    (hfloor : ∃ shift, (Number.Value.ofFloat m.racking).floor? = some shift)
    {direction : Direction} {source target : Needle} (hsource : isIndex source.index = true)
    (htarget : isIndex target.index = true) {names : List String} :
    (m.split direction source target names).Succeeds ↔
      ¬(source.bed.isSlider = true ∧ target.bed.isSlider = true) ∧
        (source.bed.isSlider = true → names = []) ∧ m.Faces source target ∧
        (names = [] ∨ m.carriers.CanUse names) := by
  have hplace := exists_splitPlace_eq_ok_iff (m := m) hsource htarget hfloor (!names.isEmpty)
  have hyarn : (!names.isEmpty) = false ↔ names = [] := by simp
  rw [hyarn] at hplace
  rw [← and_assoc, ← and_assoc, ← hplace]
  cases hresult : splitPlace source target m.racking (!names.isEmpty) with
  | error e => simp [split, hresult, not_succeeds_fail]
  | ok place =>
    obtain ⟨kind, slot⟩ := place
    cases names with
    | cons leader rest =>
      rw [split_eq_withYarn hresult, withYarn_succeeds_iff hm (isTransfer_of_splitPlace hresult)]
      simp
    | nil =>
      refine iff_of_true ?_ ⟨⟨kind, slot, rfl⟩, .inl rfl⟩
      unfold split
      rw [hresult]
      dsimp only
      split
      · exact succeeds_skip ..
      · exact submit_succeeds_iff.2 (Pass.validate_bare rfl rfl rfl)

/-! ## Every reachable machine -/

theorem floor?_zero : (Number.Value.ofFloat 0).floor? = some 0 := by decide +kernel

/-- A session in which nothing fails keeps its machine in order. -/
theorem Reachable.orderly {config : Config α} (h : Reachable config Errorless m) : m.Orderly := by
  induction h with
  | start hdeclared =>
    obtain ⟨-, rfl⟩ := Carriers.declareAll_eq_ok_iff.1 hdeclared
    exact ⟨Carriers.grouped_of_members_eq_nil rfl, 0, floor?_zero⟩
  | @header m h names ih =>
    refine ⟨ih.grouped.declare (members_declareHeader ..) ?_, ih.floor⟩
    unfold Carriers.declareHeader
    split
    · exact List.Subset.refl _
    · exact fun name hname => Carriers.mem_appendNew.2 (.inr hname)
  | @execute m h i hallowed ih =>
    exact (effect_of_succeeds hallowed.2).orderly hallowed.1.inRange ih

/-- An instruction that was read from a line succeeds just if it is legal. -/
theorem execute_succeeds_iff {config : Config α} (hm : Reachable config Errorless m)
    {i : Instruction} (hi : i.IsParsed) : (m.execute i).Succeeds ↔ m.Legal i := by
  obtain ⟨hgrouped, hfloor⟩ := hm.orderly
  have hrange := hi.inRange
  cases i with
  | bringIn kind names => exact bringIn_succeeds_iff
  | releaseHook names => exact releaseHook_succeeds_iff
  | takeOut withHook names => exact takeOut_succeeds_iff
  | stitch op direction n names => exact stitch_succeeds_iff hgrouped hfloor hrange
  | split direction source target names =>
    exact split_succeeds_iff hgrouped hfloor hrange.1 hrange.2
  | rack racking => exact iff_of_true (succeeds_done ..) trivial
  | pause => exact iff_of_true (succeeds_done ..) trivial
  | extension op => exact iff_of_true (succeeds_skip ..) trivial
  | unsupported op => exact iff_of_true (succeeds_skip ..) trivial

/-- A group of two that was brought in must stitch first in the order in which it came in. -/
theorem first_stitch_in_order :
    let m := ((initial (Config.standard : Config Float32)).execute
      (.bringIn .plain ["A", "B"])).machine
    (m.execute (.stitch .knit .right (.front 0) ["A", "B"])).Succeeds ∧
      ¬(m.execute (.stitch .knit .right (.front 0) ["B", "A"])).Succeeds := by
  intro m
  have hdeclared : Carriers.empty.declareAll [] = .ok .empty := rfl
  have hin : Instruction.IsParsed (.bringIn .plain ["A", "B"]) :=
    ⟨"in A B".toList, by decide +kernel⟩
  have hm : Reachable (Config.standard : Config Float32) Errorless m :=
    .execute (.start hdeclared) ⟨hin, none, rfl⟩
  have hforward : Instruction.IsParsed (.stitch .knit .right (.front 0) ["A", "B"]) :=
    ⟨"knit + f0 A B".toList, by decide +kernel⟩
  have hbackward : Instruction.IsParsed (.stitch .knit .right (.front 0) ["B", "A"]) :=
    ⟨"knit + f0 B A".toList, by decide +kernel⟩
  exact ⟨(execute_succeeds_iff hm hforward).2 (by decide +kernel),
    (execute_succeeds_iff hm hbackward).not.2 (by decide +kernel)⟩

end Machine

end Knitting
