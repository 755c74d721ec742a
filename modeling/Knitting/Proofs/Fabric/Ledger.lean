import Knitting.Proofs.Fabric.WellFormed
import Mathlib.Data.List.Forall2

set_option autoImplicit false

/-! # A ledger of loops

Loops have no names: the fabric keeps lists of them, by row and needle. To say which loop is where,
a run keeps a ledger beside the fabric. It numbers the loops in the order in which they are made and
notes, for each row and needle, the numbers of the loops there. The ledger is never read by a call;
`Tracks` says that it is right about the fabric, and `tracks_ledger` that it is so after every
run. -/

namespace Knitting

variable {α : Type}

/-! ## The same loop, moved -/

/-- A loop, and the same loop after transfers: what they draw anew is its head. -/
structure Loop.SameYarn (l l' : Loop α) : Prop where
  carrier : l'.carrier = l.carrier
  direction : l'.direction = l.direction
  length : l'.points.length = l.points.length
  points : ∀ i, inTransferHead i = false → l'.points[i]? = l.points[i]?

theorem Loop.SameYarn.refl (l : Loop α) : l.SameYarn l := ⟨rfl, rfl, rfl, fun _ _ => rfl⟩

theorem Loop.SameYarn.withHead {l l' : Loop α} (h : l.SameYarn l') (head : List (Point α)) :
    l.SameYarn (l'.withHead head) where
  carrier := h.carrier
  direction := h.direction
  length := by rw [Loop.withHead, List.length_mapIdx, h.length]
  points i hi := by
    rw [← h.points i hi, Loop.withHead, List.getElem?_mapIdx]
    cases l'.points[i]? <;> simp [hi]

/-- Leading both to the same stitch leaves them the same. -/
theorem Loop.SameYarn.endAt {l l' : Loop α} (h : l.SameYarn l') (x y : α) :
    (l.endAt x y).SameYarn (l'.endAt x y) := by
  unfold Loop.endAt
  rw [h.length]
  dsimp only
  split
  · exact h
  · refine ⟨h.carrier, h.direction, by simp [h.length], ?_⟩
    intro i hi
    rw [List.getElem?_mapIdx, List.getElem?_mapIdx, h.points i hi]

/-! ## The ledger -/

/-- Which loop is where. -/
structure Ledger (α : Type) where
  /-- The loops in the order in which they were made, each as it is but for the heads that transfers
  drew anew. -/
  made : List (Loop α)
  /-- The numbers of the loops that a row has at a needle, oldest first. -/
  slot : Held → Needle → List Nat

namespace Ledger

/-- The ledger of a fabric without yarn. -/
def empty : Ledger α := ⟨[], fun _ _ => []⟩

/-- A loop is that of a number. -/
def Shows (made : List (Loop α)) (k : Nat) (l : Loop α) : Prop :=
  ∃ l₀, made[k]? = some l₀ ∧ l₀.SameYarn l

theorem Shows.append {made : List (Loop α)} {k : Nat} {l : Loop α} (h : Shows made k l)
    (more : List (Loop α)) : Shows (made ++ more) k l := by
  obtain ⟨l₀, hl₀, hl⟩ := h
  exact ⟨l₀, List.getElem?_append_left (List.getElem?_eq_some_iff.1 hl₀).1 ▸ hl₀, hl⟩

/-- The loops made, with the end of one of them led to a place and height. -/
def led (b : Ledger α) (tail : Option Nat) (seam : α × α) : List (Loop α) :=
  match tail with
  | none => b.made
  | some k => b.made.modify k fun l => l.endAt seam.1 seam.2

/-- The ledger with a new loop in a row, to which the loop of number `tail` is led. -/
def stitch (b : Ledger α) (tail : Option Nat) (seam : α × α) (row : Held) (n : Needle)
    (l : Loop α) : Ledger α where
  made := b.led tail seam ++ [l]
  slot k m := if k = row ∧ m = n then b.slot k m ++ [b.made.length] else b.slot k m

/-- The ledger with the loops of a row moved from one needle to another. -/
def move (b : Ledger α) (source target : Needle) (h : Held) : Ledger α :=
  { b with
    slot := fun k m =>
      if k = h ∧ m = target then
        (if source = target then [] else b.slot h target) ++ b.slot h source
      else if k = h ∧ m = source then []
      else b.slot k m }

theorem slot_stitch_self (b : Ledger α) (tail : Option Nat) (seam : α × α) (row : Held)
    (n : Needle) (l : Loop α) :
    (b.stitch tail seam row n l).slot row n = b.slot row n ++ [b.made.length] :=
  if_pos ⟨rfl, rfl⟩

theorem slot_stitch_of_ne (b : Ledger α) (tail : Option Nat) (seam : α × α) {row k : Held}
    (h : k ≠ row) (n m : Needle) (l : Loop α) :
    (b.stitch tail seam row n l).slot k m = b.slot k m :=
  if_neg fun hk => h hk.1

theorem slot_move_target (b : Ledger α) (source target : Needle) (h : Held) :
    (b.move source target h).slot h target =
      (if source = target then [] else b.slot h target) ++ b.slot h source :=
  if_pos ⟨rfl, rfl⟩

theorem slot_move_of_ne (b : Ledger α) (source target : Needle) {h k : Held} (hk : k ≠ h)
    (m : Needle) : (b.move source target h).slot k m = b.slot k m := by
  simp [move, hk]

@[simp] theorem made_move (b : Ledger α) (source target : Needle) (h : Held) :
    (b.move source target h).made = b.made := rfl

@[simp] theorem length_led (b : Ledger α) (tail : Option Nat) (seam : α × α) :
    (b.led tail seam).length = b.made.length := by
  unfold led
  split <;> simp

theorem mem_slot_stitch {b : Ledger α} {tail : Option Nat} {seam : α × α} {row k : Held}
    {n m : Needle} {l : Loop α} {i : Nat} :
    i ∈ (b.stitch tail seam row n l).slot k m ↔
      i ∈ b.slot k m ∨ k = row ∧ m = n ∧ i = b.made.length := by
  simp only [stitch]
  split
  · next h => simp [h]
  · next h =>
    refine ⟨.inl, fun hi => hi.resolve_right fun ⟨hk, hm, _⟩ => h ⟨hk, hm⟩⟩

/-- A move changes the needle of the loops that it moves and of no others. -/
theorem mem_slot_move {b : Ledger α} {source target : Needle} {h k : Held} {m : Needle} {i : Nat} :
    i ∈ (b.move source target h).slot k m ↔
      ∃ m₀, i ∈ b.slot k m₀ ∧ m = if k = h ∧ m₀ = source then target else m₀ := by
  simp only [move]
  by_cases hk : k = h
  · subst hk
    simp only [true_and]
    by_cases hm : m = target
    · -- What is at the target was there, unless it is the source, or came from the source.
      subst hm
      rw [if_pos rfl, List.mem_append]
      constructor
      · rintro (hi | hi)
        · by_cases hs : source = m
          · simp [hs] at hi
          · rw [if_neg hs] at hi
            exact ⟨m, hi, by rw [if_neg (Ne.symm hs)]⟩
        · exact ⟨source, hi, by rw [if_pos rfl]⟩
      · rintro ⟨m₀, hi, hm₀⟩
        split at hm₀
        · next hs => exact .inr (hs ▸ hi)
        · next hs =>
          subst hm₀
          rw [if_neg (Ne.symm hs)]
          exact .inl hi
    · rw [if_neg hm]
      constructor
      · intro hi
        split at hi
        · simp at hi
        · next hs => exact ⟨m, hi, by rw [if_neg hs]⟩
      · rintro ⟨m₀, hi, hm₀⟩
        split at hm₀
        · exact absurd hm₀ hm
        · next hs =>
          subst hm₀
          rwa [if_neg hs]
  · simp [hk]

/-- What the loop of a number is when the tail has been led. -/
theorem getElem?_led (b : Ledger α) (tail : Option Nat) (seam : α × α) (i : Nat) :
    (b.led tail seam)[i]? =
      (b.made[i]?).map fun l => if tail = some i then l.endAt seam.1 seam.2 else l := by
  unfold led
  cases tail with
  | none => simp
  | some t =>
    simp only [List.getElem?_modify, Option.some.injEq]
    rfl

theorem Shows.led_of_ne {b : Ledger α} {i : Nat} {l : Loop α} (h : Shows b.made i l)
    {tail : Option Nat} (hne : tail ≠ some i) (seam : α × α) : Shows (b.led tail seam) i l := by
  obtain ⟨l₀, hl₀, hl⟩ := h
  exact ⟨l₀, by rw [getElem?_led, hl₀, Option.map_some, if_neg hne], hl⟩

theorem Shows.led_self {b : Ledger α} {i : Nat} {l : Loop α} (h : Shows b.made i l)
    (seam : α × α) : Shows (b.led (some i) seam) i (l.endAt seam.1 seam.2) := by
  obtain ⟨l₀, hl₀, hl⟩ := h
  exact ⟨l₀.endAt seam.1 seam.2, by rw [getElem?_led, hl₀, Option.map_some, if_pos rfl],
    hl.endAt _ _⟩

/-- A change of the last loop of a list pairs with the last number of another. -/
theorem forall₂_modify_last {R S : Nat → Loop α → Prop} {f : Loop α → Loop α} {is : List Nat}
    {ls : List (Loop α)} (h : List.Forall₂ R is ls)
    (hlast : ∀ i l, is.getLast? = some i → R i l → S i (f l))
    (hrest : ∀ i l, i ∈ is.dropLast → R i l → S i l) :
    List.Forall₂ S is (ls.modify (ls.length - 1) f) := by
  induction h with
  | nil => exact .nil
  | @cons i l is ls hil h ih =>
    -- The change is put off until the last loop is reached.
    cases h with
    | nil => exact .cons (hlast i l rfl hil) .nil
    | @cons j l' is ls hjl h =>
      refine .cons (hrest i l (by simp) hil) (ih ?_ ?_)
      · intro j l' hj
        exact hlast j l' (by rwa [List.getLast?_cons_cons])
      · intro j l' hj
        exact hrest j l' (by rw [List.dropLast_cons_cons]; exact List.mem_cons_of_mem _ hj)

theorem getLast?_ne_of_mem_dropLast {is : List Nat} (h : is.Nodup) {i : Nat}
    (hi : i ∈ is.dropLast) : is.getLast? ≠ some i := by
  intro hlast
  have hne : is ≠ [] := by
    rintro rfl
    exact List.not_mem_nil hi
  rw [List.getLast?_eq_some_getLast hne] at hlast
  rw [← List.dropLast_append_getLast hne, List.nodup_append] at h
  exact h.2.2 i hi _ (List.mem_singleton_self _) (Option.some.inj hlast).symm

end Ledger

/-! ## The ledger of a run -/

namespace Fabric

/-- The number of the loop that is led to the next stitch of a lane. -/
def tailNumber? (f : Fabric α) (b : Ledger α) (c : Nat) : Option Nat :=
  (f.store.path c).last.bind fun place => (b.slot ⟨c, place.row⟩ place.needle).getLast?

theorem exists_place_of_tailNumber? {f : Fabric α} {b : Ledger α} {c i : Nat}
    (h : f.tailNumber? b c = some i) :
    ∃ place, (f.store.path c).last = some place ∧ i ∈ b.slot ⟨c, place.row⟩ place.needle := by
  obtain ⟨place, hlast, hi⟩ := Option.bind_eq_some_iff.1 h
  exact ⟨place, hlast, List.mem_of_getLast? hi⟩

/-- A loop of a fabric is that of a number. -/
def Numbered (f : Fabric α) (b : Ledger α) (i : Nat) (l : Loop α) : Prop :=
  ∃ h n, (i, l) ∈ (b.slot h n).zip (f.rowLoops h n)

theorem numbered_of_getElem? {f : Fabric α} {b : Ledger α} {h : Held} {n : Needle} {i j : Nat}
    {l : Loop α} (hi : (b.slot h n)[j]? = some i) (hl : (f.rowLoops h n)[j]? = some l) :
    f.Numbered b i l :=
  ⟨h, n, List.mem_of_getElem? (List.getElem?_zip_eq_some.2 ⟨hi, hl⟩)⟩

/-- A ledger is right about a fabric: each row has at each needle the loops whose numbers are noted
there, and every loop is noted once. -/
structure Tracks (f : Fabric α) (b : Ledger α) : Prop where
  /-- The loops of a row at a needle are those of the numbers noted there. -/
  loops : ∀ h n, List.Forall₂ (Ledger.Shows b.made) (b.slot h n) (f.rowLoops h n)
  /-- No number is noted twice for a row and a needle. -/
  nodup : ∀ h n, (b.slot h n).Nodup
  /-- No number is noted for two rows or two needles. -/
  apart : ∀ i h n k m, i ∈ b.slot h n → i ∈ b.slot k m → h = k ∧ n = m
  /-- Every number is noted. -/
  complete : ∀ i < b.made.length, ∃ h n, i ∈ b.slot h n

theorem tracks_empty (g : Geometry α) : Tracks (empty g) Ledger.empty where
  loops _ _ := .nil
  nodup _ _ := List.nodup_nil
  apart _ _ _ _ _ hi := absurd hi List.not_mem_nil
  complete i hi := absurd hi (Nat.not_lt_zero i)

namespace Tracks

variable {f : Fabric α} {b : Ledger α}

/-- Only loops that were made are noted. -/
theorem lt_length (hb : f.Tracks b) {h : Held} {n : Needle} {i : Nat} (hi : i ∈ b.slot h n) :
    i < b.made.length := by
  obtain ⟨j, hj, rfl⟩ := List.mem_iff_getElem.1 hi
  have hlen := (hb.loops h n).length_eq
  obtain ⟨l₀, hl₀, -⟩ := (hb.loops h n).get hj (hlen ▸ hj)
  exact (List.getElem?_eq_some_iff.1 hl₀).1

theorem slot_eq_nil_iff (hb : f.Tracks b) (h : Held) (n : Needle) :
    b.slot h n = [] ↔ f.rowLoops h n = [] := by
  rw [← List.length_eq_zero_iff, ← List.length_eq_zero_iff, (hb.loops h n).length_eq]

/-- Each number is that of exactly one loop, wherever that is. -/
theorem existsUnique_numbered (hb : f.Tracks b) {i : Nat} (hi : i < b.made.length) :
    ∃ l, (∀ l', f.Numbered b i l' ↔ l' = l) ∧ Ledger.Shows b.made i l := by
  obtain ⟨h, n, hmem⟩ := hb.complete i hi
  obtain ⟨j, hj⟩ := List.mem_iff_getElem?.1 hmem
  obtain ⟨hjlt, -⟩ := List.getElem?_eq_some_iff.1 hj
  rw [(hb.loops h n).length_eq] at hjlt
  have hl := List.getElem?_eq_getElem hjlt
  refine ⟨_, fun l' => ⟨?_, ?_⟩, (List.forall₂_iff_zip.1 (hb.loops h n)).2
    (List.mem_of_getElem? (List.getElem?_zip_eq_some.2 ⟨hj, hl⟩))⟩
  · -- Another loop of this number is in the same slot, and at the same place of it.
    rintro ⟨k, m, hl'⟩
    obtain ⟨rfl, rfl⟩ := hb.apart i h n k m hmem (List.of_mem_zip hl').1
    obtain ⟨j', hj'⟩ := List.mem_iff_getElem?.1 hl'
    obtain ⟨hi', hl'⟩ := List.getElem?_zip_eq_some.1 hj'
    have hlt := (List.getElem?_eq_some_iff.1 hi').1
    obtain rfl := (List.getElem?_inj hlt (hb.nodup h n)).1 (hi'.trans hj.symm)
    exact Option.some.inj (hl'.symm.trans hl)
  · rintro rfl
    exact numbered_of_getElem? hj hl

/-- Every loop that was made has all of its points. -/
theorem length_points (hf : f.WellFormed) (hb : f.Tracks b) {i : Nat} {l : Loop α}
    (hl : b.made[i]? = some l) : l.points.length = loopPoints := by
  obtain ⟨l', hnumbered, l₀, hl₀, hsame⟩ :=
    hb.existsUnique_numbered (List.getElem?_eq_some_iff.1 hl).1
  obtain rfl := Option.some.inj (hl.symm.trans hl₀)
  obtain ⟨h, n, hmem⟩ := (hnumbered l').2 rfl
  have hrow := (List.of_mem_zip hmem).2
  rw [rowLoops_eq] at hrow
  obtain ⟨row, -, hbelongs⟩ := (hf.rows h.lane).belongsTo hrow
  rw [← hsame.length, hbelongs.points]

/-- A ledger says nothing of the record of held rows. -/
theorem clearHeld (hb : f.Tracks b) (n : Needle) : (f.clearHeld n).Tracks b :=
  ⟨fun h m => rowLoops_congr (store_clearHeld f n) h m ▸ hb.loops h m, hb.nodup, hb.apart,
    hb.complete⟩

end Tracks

/-! ### A stitch -/

/-- The loops of a row at a needle when the last loop of a lane has been led to a stitch. -/
def ledLoops (f : Fabric α) (c : Nat) (seam : α × α) (k : Held) (m : Needle) : List (Loop α) :=
  if k.lane = c ∧ (f.store.path c).last = some ⟨k.row, m⟩ then
    (f.rowLoops k m).modify ((f.rowLoops k m).length - 1) fun l => l.endAt seam.1 seam.2
  else f.rowLoops k m

/-- The loops led to a stitch are still those of their numbers. -/
theorem Tracks.led {f : Fabric α} {b : Ledger α} (hb : f.Tracks b) (c : Nat) (seam : α × α)
    (k : Held) (m : Needle) :
    List.Forall₂ (Ledger.Shows (b.led (f.tailNumber? b c) seam)) (b.slot k m)
      (f.ledLoops c seam k m) := by
  unfold ledLoops
  split
  · next hat =>
    obtain ⟨rfl, hat⟩ := hat
    have hnumber : f.tailNumber? b k.lane = (b.slot k m).getLast? := by
      rw [tailNumber?, hat]
      rfl
    rw [hnumber]
    refine Ledger.forall₂_modify_last (hb.loops k m) ?_ ?_
    · intro i l hi hl
      rw [hi]
      exact hl.led_self seam
    · intro i l hi hl
      exact hl.led_of_ne (Ledger.getLast?_ne_of_mem_dropLast (hb.nodup k m) hi) seam
  · next hat =>
    -- The loop that is led is noted elsewhere, and nowhere else.
    have hne : ∀ i ∈ b.slot k m, f.tailNumber? b c ≠ some i := by
      intro i hi htail
      obtain ⟨place, hlast, hplace⟩ := exists_place_of_tailNumber? htail
      obtain ⟨rfl, rfl⟩ := hb.apart i k m _ _ hi hplace
      exact hat ⟨rfl, hlast⟩
    exact ((List.forall₂_and_left _ _).2 ⟨hne, hb.loops k m⟩).imp
      fun i l ⟨hi, hl⟩ => hl.led_of_ne hi seam

/-- Where a knit goes, its row has nothing. -/
theorem rowLoops_stitchRow_knit (f : Fabric α) (lane : Lane) (direction : Direction) (n : Needle) :
    f.rowLoops (f.stitchRow lane direction n true) n = [] := by
  rw [rowLoops_eq, stitchRow, YarnPath.loopsOn]
  -- A knit opens a row, or goes to one that has nothing at its needle.
  rcases (f.store.path lane.index).nextRow_eq_length_or direction n true with
    hnew | ⟨row, hrow, -, hn⟩
  · rw [List.getElem?_eq_none (Nat.le_of_eq hnew.symm)]
    rfl
  · have hnone : row.slot? n = none := by simpa [Row.holds] using hn rfl
    rw [hrow, Option.map_some, Option.getD_some, Row.loopsOn, hnone, Option.getD_none]

variable [Scalar α]

/-- What a stitch leaves of the loops of each row, as the ledger has it: the last loop of its lane
is led to it, and it adds one. -/
theorem WellFormed.rowLoops_place {f : Fabric α} (hf : f.WellFormed) (direction : Direction)
    (n m : Needle) (lane : Lane) (height : α) (head : Option α) (knit : Bool) (k : Held) :
    (f.place direction n lane height head knit).1.rowLoops k m =
      f.ledLoops lane.index (f.seam lane direction n height) k m ++
        if k = f.stitchRow lane direction n knit ∧ m = n then
          [f.stitchLoop lane direction n height head] else [] := by
  have hlead : k.lane = lane.index → (f.leadPath lane direction n height).loopsOn k.row m =
      f.ledLoops lane.index (f.seam lane direction n height) k m := by
    intro hk
    simp only [leadPath, ledLoops, YarnPath.loopsOn_modifyLastLoop, rowLoops_eq, hk, true_and]
  rw [Fabric.rowLoops_place hf.last_eq_none]
  by_cases hplace : k = f.stitchRow lane direction n knit ∧ m = n
  · have hk : k.lane = lane.index := congrArg Held.lane hplace.1
    rw [if_pos hplace, if_pos hplace, ← hlead hk, hplace.2]
    cases knit
    · rfl
    · -- A knit replaces what its row has at the needle, which is nothing.
      have hempty : (f.leadPath lane direction n height).loopsOn k.row n = [] := by
        have hrow := f.rowLoops_stitchRow_knit lane direction n
        rw [← List.length_eq_zero_iff, rowLoops_eq] at hrow
        rw [hplace.1, ← List.length_eq_zero_iff, length_loopsOn_leadPath]
        exact hrow
      rw [hempty]
      rfl
  · rw [if_neg hplace, if_neg hplace, List.append_nil]
    split
    · next hk => exact hlead hk
    · next hk => rw [ledLoops, if_neg fun h => hk h.1]

theorem Tracks.stitch {f : Fabric α} {b : Ledger α} (hf : f.WellFormed) (hb : f.Tracks b)
    (direction : Direction) (n : Needle) (lane : Lane) (height : α) (head : Option α)
    (knit : Bool) :
    (f.place direction n lane height head knit).1.Tracks
      (b.stitch (f.tailNumber? b lane.index) (f.seam lane direction n height)
        (f.stitchRow lane direction n knit) n (f.stitchLoop lane direction n height head)) where
  loops k m := by
    rw [hf.rowLoops_place]
    have hold := (hb.led lane.index (f.seam lane direction n height) k m).imp fun i l hl =>
      hl.append [f.stitchLoop lane direction n height head]
    simp only [Ledger.stitch]
    split
    · refine List.rel_append hold (.cons ⟨_, ?_, .refl _⟩ .nil)
      rw [← Ledger.length_led b (f.tailNumber? b lane.index) (f.seam lane direction n height)]
      exact List.getElem?_concat_length
    · rwa [List.append_nil]
  nodup k m := by
    have hold := hb.nodup k m
    simp only [Ledger.stitch]
    split
    · refine List.nodup_append.2 ⟨hold, List.nodup_singleton _, ?_⟩
      intro i hi j hj
      rw [List.mem_singleton.1 hj]
      exact Nat.ne_of_lt (hb.lt_length hi)
    · exact hold
  apart i h m k m' hi hi' := by
    rw [Ledger.mem_slot_stitch] at hi hi'
    rcases hi with hi | ⟨rfl, rfl, rfl⟩ <;> rcases hi' with hi' | ⟨rfl, rfl, hnew⟩
    · exact hb.apart i h m k m' hi hi'
    · exact absurd hnew (Nat.ne_of_lt (hb.lt_length hi))
    · exact absurd (hb.lt_length hi') (Nat.lt_irrefl _)
    · exact ⟨rfl, rfl⟩
  complete i hi := by
    simp only [Ledger.mem_slot_stitch]
    simp only [Ledger.stitch, List.length_append, Ledger.length_led, List.length_singleton] at hi
    rcases Nat.lt_succ_iff_lt_or_eq.1 hi with hi | rfl
    · obtain ⟨h, m, hmem⟩ := hb.complete i hi
      exact ⟨h, m, .inl hmem⟩
    · exact ⟨_, _, .inr ⟨rfl, rfl, rfl⟩⟩

/-! ### A move -/

theorem Tracks.move {f : Fabric α} {b : Ledger α} (hb : f.Tracks b) {source : Needle} {h : Held}
    (hne : f.rowLoops h source ≠ []) (target : Needle) (laneCount : Nat) (height : α) :
    (f.moveRow source target laneCount height h).1.Tracks (b.move source target h) where
  loops k m := by
    have hmoved : List.Forall₂ (Ledger.Shows b.made) (b.slot h source)
        (f.movedLoops source target laneCount height h) := by
      rw [movedLoops, List.forall₂_map_right_iff]
      refine (hb.loops h source).imp ?_
      intro i l hshows
      obtain ⟨l₀, hl₀, hl⟩ := hshows
      refine ⟨l₀, hl₀, ?_⟩
      split
      · exact hl
      · exact hl.withHead _
    rw [rowLoops_moveRow hne]
    simp only [Ledger.move]
    split
    · refine List.rel_append ?_ hmoved
      split
      · exact .nil
      · exact hb.loops h target
    · split
      · exact .nil
      · exact hb.loops k m
  nodup k m := by
    simp only [Ledger.move]
    split
    · split
      · exact hb.nodup h source
      · next hst =>
        refine List.nodup_append.2 ⟨hb.nodup h target, hb.nodup h source, ?_⟩
        intro i hi j hj hij
        exact hst (hb.apart i h target h source hi (hij ▸ hj)).2.symm
    · split
      · exact List.nodup_nil
      · exact hb.nodup k m
  apart i k n k' n' hi hi' := by
    obtain ⟨m, hm, rfl⟩ := Ledger.mem_slot_move.1 hi
    obtain ⟨m', hm', rfl⟩ := Ledger.mem_slot_move.1 hi'
    obtain ⟨rfl, rfl⟩ := hb.apart i k m k' m' hm hm'
    exact ⟨rfl, rfl⟩
  complete i hi := by
    obtain ⟨k, m, hm⟩ := hb.complete i hi
    exact ⟨k, _, Ledger.mem_slot_move.2 ⟨m, hm, rfl⟩⟩

/-! ### A run -/

/-- The ledger after a call. -/
def record (f : Fabric α) (b : Ledger α) : Operation → Ledger α
  | .stitch knit direction n lane =>
    let height := f.stitchBase knit n
    b.stitch (f.tailNumber? b lane.index) (f.seam lane direction n height)
      (f.stitchRow lane direction n knit) n
      (f.stitchLoop lane direction n height (f.stitchHead? knit n))
  | .transfer source target _ => (f.heldAt source).foldl (fun b h => b.move source target h) b
  | .drop _ => b

/-- Only a stitch makes a loop. -/
theorem made_record {f : Fabric α} {b : Ledger α} {op : Operation} (h : op.lane? = none) :
    (f.record b op).made = b.made := by
  cases op with
  | stitch => simp [Operation.lane?] at h
  | transfer source target laneCount =>
    exact List.foldlRecOn (f.heldAt source) _ (motive := fun c => c.made = b.made) rfl
      fun c hc h _ => (Ledger.made_move c source target h).trans hc
  | drop => rfl

/-- The fabric and the ledger after a run. -/
def runWithLedger (g : Geometry α) (ops : List Operation) : Fabric α × Ledger α :=
  ops.foldl (fun (f, b) op => (f.apply op, f.record b op)) (empty g, .empty)

/-- The ledger of a run. -/
def ledger (g : Geometry α) (ops : List Operation) : Ledger α := (runWithLedger g ops).2

/-- The ledger is never read. -/
theorem runWithLedger_fst (g : Geometry α) (ops : List Operation) :
    (runWithLedger g ops).1 = run g ops :=
  (List.foldl_hom Prod.fst fun _ _ => rfl).symm

@[simp] theorem ledger_nil (g : Geometry α) : ledger g [] = .empty := rfl

@[simp] theorem ledger_concat (g : Geometry α) (ops : List Operation) (op : Operation) :
    ledger g (ops ++ [op]) = (run g ops).record (ledger g ops) op := by
  rw [← runWithLedger_fst, ledger, runWithLedger, List.foldl_concat]
  rfl

theorem Transit.tracks_moveRows {f : Fabric α} {b : Ledger α} {source : Needle}
    {rows : List Held} (hf : f.Transit source rows) (hb : f.Tracks b) (target : Needle)
    (laneCount : Nat) (height : α) :
    (f.moveRows source target laneCount height rows).Tracks
      (rows.foldl (fun b h => b.move source target h) b) := by
  induction rows generalizing f b with
  | nil => exact hb
  | cons h rows ih =>
    have hne := (hf.pending h List.mem_cons_self).2
    exact ih (hf.moveRow target laneCount height) (hb.move hne target laneCount height)

/-- The ledger stays right through every call. -/
theorem Tracks.record {f : Fabric α} {b : Ledger α} (hf : f.WellFormed) (hb : f.Tracks b)
    (op : Operation) : (f.apply op).Tracks (f.record b op) := by
  cases op with
  | stitch knit direction n lane =>
    rw [apply_stitch]
    exact hb.stitch hf direction n lane _ _ knit
  | transfer source target laneCount =>
    rcases f.apply_transfer source target laneCount with ⟨hnone, h⟩ | ⟨height, h⟩
    · rw [h, Fabric.record, (hf.baseHeight?_eq_none_iff source).1 hnone]
      exact hb
    · rw [h]
      exact (transit_clearHeld hf source).tracks_moveRows (hb.clearHeld source) target laneCount
        height
  | drop n =>
    rcases f.apply_drop n with ⟨-, h⟩ | h
    · rw [h]
      exact hb
    · rw [h]
      exact hb.clearHeld n

/-- The ledger of a run is right about the fabric after it. -/
theorem tracks_ledger (g : Geometry α) (ops : List Operation) :
    (run g ops).Tracks (ledger g ops) := by
  induction ops using List.reverseRecOn with
  | nil => exact tracks_empty g
  | append_singleton ops op ih =>
    rw [run_concat, ledger_concat]
    exact ih.record (wellFormed_run g ops) op

end Fabric

end Knitting
