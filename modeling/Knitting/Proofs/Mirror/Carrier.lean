import Knitting.Proofs.Mirror.Height
import Knitting.Proofs.Number.Whole
import Knitting.Proofs.Pass.Kicks
import Mathlib

set_option autoImplicit false

/-! # Carriers in a mirror

A carrier that is parked to the right of a needle is parked in the mirror to the left of its image.
Under a racking by a whole number of needles, and the image under one by as many the other way, the
places of needles and of carriers along the machine are mirrored too, and so are the landing zones
of passes (`inLandingZone_mirror`). All of these places are halves of whole numbers, so nothing is
rounded as long as they are not too far out. -/

namespace Knitting

open Number

/-! ## Places along the machine -/

/-- A racking by a whole number of needles, and the racking by as many the other way. -/
def Racking.Mirrors (racking racking' : Float) : Prop :=
  ∃ r : Int, r.natAbs ≤ 2 ^ 29 ∧ (racking == Float.ofInt r) = true ∧
    (racking' == Float.ofInt (-r)) = true

theorem isHalf_of_natAbs_le {x : Float} {n : Int} (hn : n.natAbs ≤ 2 ^ 51)
    (h : (x == Float.ofInt n) = true) : IsHalf x (2 * n) :=
  isHalf_of_beq h (isHalf_ofInt (by omega))

namespace Racking

theorem Mirrors.halves {racking racking' : Float} (h : Mirrors racking racking') :
    ∃ r : Int, r.natAbs ≤ 2 ^ 29 ∧ IsHalf racking (2 * r) ∧ IsHalf racking' (2 * -r) := by
  obtain ⟨r, hr, hwhole, himage⟩ := h
  exact ⟨r, hr, isHalf_of_natAbs_le (by omega) hwhole, isHalf_of_natAbs_le (by omega) himage⟩

/-- Mirrored rackings are equal just if their images are. -/
theorem Mirrors.beq_eq {racking racking' other other' : Float} (h : Mirrors racking racking')
    (h' : Mirrors other other') : (racking' == other') = (racking == other) := by
  obtain ⟨r, -, hr, hr'⟩ := h.halves
  obtain ⟨o, -, ho, ho'⟩ := h'.halves
  rw [Bool.eq_iff_iff, hr.beq_iff ho, hr'.beq_iff ho']
  omega

/-- The beds start unshifted, which is its own image. -/
theorem mirrors_zero : Mirrors 0 0 := ⟨0, Nat.zero_le _, by decide, by decide⟩

/-- The negation of a whole racking is its image. -/
theorem mirrors_neg {racking : Float} {r : Int} (hr : r.natAbs ≤ 2 ^ 29)
    (h : (racking == Float.ofInt r) = true) : Mirrors racking (-racking) := by
  have hwhole : IsHalf racking (2 * r) := isHalf_of_natAbs_le (by omega) h
  have hneg : IsHalf (-racking) (-(2 * r)) := hwhole.neg
  have himage : IsHalf (Float.ofInt (-r)) (2 * -r) := isHalf_ofInt (by omega)
  exact ⟨r, hr, h, (hneg.beq_iff himage).2 (by omega)⟩

end Racking

namespace Needle

theorem shifted_mirror (n : Needle) (shift : Int) :
    n.mirror.shifted (-shift) = -n.shifted shift := by
  unfold shifted
  rw [bed_mirror, index_mirror]
  cases n.bed.side with
  | front => rfl
  | back => exact (Int.neg_add ..).symm

theorem natAbs_shifted_le (n : Needle) (shift : Int) :
    (n.shifted shift).natAbs ≤ n.index.natAbs + shift.natAbs := by
  unfold shifted
  cases n.bed.side with
  | front => exact Nat.le_add_right ..
  | back => exact Int.natAbs_add_le ..

/-- A needle has a slot, and the slot of its image is the image of the slot. -/
theorem slot_mirror {racking racking' : Float} (h : Racking.Mirrors racking racking') {n : Needle}
    (hn : n.index.natAbs ≤ 2 ^ 29) :
    ∃ s : Int, s.natAbs ≤ 2 ^ 30 ∧ n.slot racking = .ok s ∧ n.mirror.slot racking' = .ok (-s) := by
  obtain ⟨r, hr, hwhole, himage⟩ := h.halves
  have hfar := n.natAbs_shifted_le r
  have hindex : ∀ i : Int, i.natAbs ≤ 2 ^ 30 → isIndex i = true := by
    intro i hi
    rw [isIndex_iff]
    omega
  have hmirror : n.mirror.index.natAbs ≤ 2 ^ 29 := by rwa [index_mirror, Int.natAbs_neg]
  refine ⟨n.shifted r, by omega, ?_, ?_⟩
  · rw [slot_eq_ok_iff (hindex _ (by omega)) (floor?_of_isHalf hwhole)]
    exact ⟨rfl, hindex _ (by omega)⟩
  · rw [slot_eq_ok_iff (hindex _ (by omega)) (floor?_of_isHalf himage), shifted_mirror]
    exact ⟨rfl, hindex _ (by rw [Int.natAbs_neg]; omega)⟩

end Needle

/-- The image of a carrier's last stitch. -/
def LastStitch.mirror (last : LastStitch) : LastStitch :=
  ⟨last.needle.mirror, last.direction.opposite, last.stoppingDistance⟩

/-- A carrier is parked at the image of the place where its image is. -/
theorem LastStitch.parkedSlot_mirror {racking racking' : Float}
    (h : Racking.Mirrors racking racking') {last : LastStitch}
    (hlast : last.needle.index.natAbs ≤ 2 ^ 30) :
    ∃ p : Int, p.natAbs ≤ 2 ^ 32 ∧ IsHalf (last.parkedSlot racking) p ∧
      IsHalf (last.mirror.parkedSlot racking') (-p) := by
  obtain ⟨r, hr, hwhole, himage⟩ := h.halves
  have hfar := last.needle.natAbs_shifted_le r
  have hplace : IsHalf (last.needle.slotPosition racking) (2 * last.needle.shifted r) := by
    rw [Needle.slotPosition_of_floor _ (floor?_of_isHalf hwhole)]
    exact isHalf_ofInt (by omega)
  have hplace' : IsHalf (last.needle.mirror.slotPosition racking')
      (2 * -last.needle.shifted r) := by
    rw [Needle.slotPosition_of_floor _ (floor?_of_isHalf himage), Needle.shifted_mirror]
    exact isHalf_ofInt (by omega)
  unfold parkedSlot mirror
  cases last.direction with
  | left =>
    refine ⟨2 * last.needle.shifted r - 1, by omega, hplace.sub isHalf_half (by omega), ?_⟩
    have hright := hplace'.add isHalf_half (by omega)
    rwa [show 2 * -last.needle.shifted r + 1 = -(2 * last.needle.shifted r - 1) by omega] at hright
  | right =>
    refine ⟨2 * last.needle.shifted r + 1, by omega, hplace.add isHalf_half (by omega), ?_⟩
    have hleft := hplace'.sub isHalf_half (by omega)
    rwa [show 2 * -last.needle.shifted r - 1 = -(2 * last.needle.shifted r + 1) by omega] at hleft
  | undirected =>
    refine ⟨2 * last.needle.shifted r, by omega, hplace, ?_⟩
    rwa [show 2 * -last.needle.shifted r = -(2 * last.needle.shifted r) by omega] at hplace'

/-- The landing zone of a sweep the other way is the image of the landing zone. -/
theorem inLandingZone_mirror (direction : Direction) {slot reach p : Int} {parked parked' : Float}
    (hslot : slot.natAbs ≤ 2 ^ 30) (hreach : isIndex reach = true) (hparked : IsHalf parked p)
    (hparked' : IsHalf parked' (-p)) :
    inLandingZone direction.opposite (Float.ofInt (-slot)) parked' (Float.ofInt reach) =
      inLandingZone direction (Float.ofInt slot) parked (Float.ofInt reach) := by
  have hr := isHalf_index hreach
  rw [isIndex_iff] at hreach
  have hs : IsHalf (Float.ofInt slot) (2 * slot) := isHalf_ofInt (by omega)
  have hs' : IsHalf (Float.ofInt (-slot)) (2 * -slot) := isHalf_ofInt (by omega)
  cases direction with
  | left =>
    have hnear := hs.sub hr (by omega)
    have hnear' := hs'.add hr (by omega)
    rw [Bool.eq_iff_iff, Direction.opposite, inLandingZone_right, inLandingZone_left,
      hs'.lt_iff hparked', hparked'.le_iff hnear', hparked.lt_iff hs, hnear.le_iff hparked]
    omega
  | right =>
    have hnear := hs.add hr (by omega)
    have hnear' := hs'.sub hr (by omega)
    rw [Bool.eq_iff_iff, Direction.opposite, inLandingZone_right, inLandingZone_left,
      hparked'.lt_iff hs', hnear'.le_iff hparked', hs.lt_iff hparked, hparked.le_iff hnear]
    omega
  | undirected => rfl

/-! ## Carriers -/

/-- A carrier that is parked at the image of its needle, on the other side of it. -/
def Carrier.mirror (c : Carrier) : Carrier := { c with last := c.last.map LastStitch.mirror }

@[simp] theorem Carrier.name_mirror (c : Carrier) : c.mirror.name = c.name := rfl

/-- A carrier is parked where slots can be told apart, and needs a clearance that can be. -/
def Carrier.InRange (c : Carrier) : Prop :=
  ∀ last ∈ c.last, last.needle.index.natAbs ≤ 2 ^ 30 ∧ isIndex last.stoppingDistance = true

namespace Carriers

/-- The same carriers, each parked at the image of its place. -/
def mirror (t : Carriers) : Carriers := t.mapMembers Carrier.mirror

def InRange (t : Carriers) : Prop := ∀ c ∈ t.members, c.InRange

@[simp] theorem declared_mirror (t : Carriers) : t.mirror.declared = t.declared := rfl

@[simp] theorem fromHeader_mirror (t : Carriers) : t.mirror.fromHeader = t.fromHeader := rfl

@[simp] theorem length_members_mirror (t : Carriers) :
    t.mirror.members.length = t.members.length := by
  simp [mirror]

theorem get?_mirror (t : Carriers) (name : String) :
    t.mirror.get? name = (t.get? name).map Carrier.mirror :=
  get?_mapMembers Carrier.name_mirror t name

theorem isActive_mirror (t : Carriers) : t.mirror.isActive = t.isActive := by
  funext name
  exact isActive_mapMembers Carrier.name_mirror t name

/-- The order of the lanes is no other in the mirror. -/
theorem active_mirror (t : Carriers) : t.mirror.active = t.active.map Carrier.mirror := by
  refine (List.map_mergeSort ?_).symm
  intro c _ d _
  rfl

/-! ### Changes of carriers -/

/-- A change of each carrier in its place has the changes of the images as its image. -/
theorem mirror_mapMembers (t : Carriers) {f f' : Carrier → Carrier}
    (h : ∀ c, (f c).mirror = f' c.mirror) : (t.mapMembers f).mirror = t.mirror.mapMembers f' := by
  unfold mirror
  rw [mapMembers_mapMembers, mapMembers_mapMembers]
  congr 1
  funext c
  exact h c

theorem InRange.mapMembers {t : Carriers} (h : t.InRange) {f : Carrier → Carrier}
    (hf : ∀ c, c.InRange → (f c).InRange) : (t.mapMembers f).InRange := by
  intro c hc
  obtain ⟨d, hd, rfl⟩ := List.mem_map.1 hc
  exact hf d (h d hd)

theorem mirror_park (t : Carriers) (names : List String) (last : LastStitch) :
    (t.park names last).mirror = t.mirror.park names last.mirror := by
  rw [park_eq_mapMembers, park_eq_mapMembers]
  refine t.mirror_mapMembers ?_
  intro c
  rw [Carrier.name_mirror]
  split <;> rfl

theorem InRange.park {t : Carriers} (h : t.InRange) (names : List String) (last : LastStitch)
    (hlast : last.needle.index.natAbs ≤ 2 ^ 30) (hreach : isIndex last.stoppingDistance = true) :
    (t.park names last).InRange := by
  rw [park_eq_mapMembers]
  refine h.mapMembers ?_
  intro c hc
  split
  · intro last' hlast'
    obtain rfl := Option.some.inj hlast'
    exact ⟨hlast, hreach⟩
  · exact hc

theorem mirror_kickAll (t : Carriers) (names : List String) (slot : Int) (direction : Direction) :
    (t.kickAll names slot direction).mirror =
      t.mirror.kickAll names (-slot) direction.opposite := by
  refine t.mirror_mapMembers (f := fun c => if c.name ∈ names then c.kickedTo slot direction else c)
    ?_
  intro c
  rw [Carrier.name_mirror]
  split
  · unfold Carrier.mirror Carrier.kickedTo
    rw [Option.map_map, Option.map_map]
    rfl
  · rfl

theorem InRange.kickAll {t : Carriers} (h : t.InRange) (names : List String) {slot : Int}
    (hslot : slot.natAbs ≤ 2 ^ 30) (direction : Direction) :
    (t.kickAll names slot direction).InRange := by
  refine h.mapMembers (f := fun c => if c.name ∈ names then c.kickedTo slot direction else c) ?_
  intro c hc
  split
  · intro last hlast
    obtain ⟨old, hold, rfl⟩ := Option.map_eq_some_iff.1 hlast
    exact ⟨hslot, (hc old hold).2⟩
  · exact hc

theorem mirror_removeAll (t : Carriers) (names : List String) :
    (t.removeAll names).mirror = t.mirror.removeAll names := by
  refine (List.foldl_hom mirror ?_).symm
  intro t name
  unfold mirror remove mapMembers
  rw [List.filter_map]
  rfl

theorem InRange.removeAll {t : Carriers} (h : t.InRange) (names : List String) :
    (t.removeAll names).InRange := by
  refine List.foldlRecOn names remove h ?_
  intro t ht name _ c hc
  exact ht c (List.mem_of_mem_filter hc)

/-! ### Bringing in -/

theorem mirror_put (t : Carriers) (c : Carrier) : (t.put c).mirror = t.mirror.put c.mirror := by
  have hput : ∀ l : List Carrier, (putMember c l).map Carrier.mirror =
      putMember c.mirror (l.map Carrier.mirror) := by
    intro l
    induction l with
    | nil => rfl
    | cons d rest ih =>
      rw [putMember, List.map_cons, putMember, Carrier.name_mirror, Carrier.name_mirror]
      split
      · rfl
      · rw [List.map_cons, ih]
  unfold mirror mapMembers put
  rw [hput]

theorem InRange.put {t : Carriers} (h : t.InRange) {c : Carrier} (hc : c.InRange) :
    (t.put c).InRange := by
  have hmem : ∀ (l : List Carrier) {d : Carrier}, d ∈ putMember c l → d = c ∨ d ∈ l := by
    intro l
    induction l with
    | nil => simp [putMember]
    | cons e rest ih =>
      intro d hd
      unfold putMember at hd
      split at hd
      · rcases List.mem_cons.1 hd with rfl | hd
        · exact .inl rfl
        · exact .inr (List.mem_cons_of_mem _ hd)
      · rcases List.mem_cons.1 hd with rfl | hd
        · exact .inr List.mem_cons_self
        · exact (ih hd).imp_right (List.mem_cons_of_mem _)
  intro d hd
  rcases hmem t.members hd with rfl | hd
  · exact hc
  · exact h d hd

theorem mirror_declareAll (t : Carriers) (names : List String) :
    t.mirror.declareAll names = (t.declareAll names).map mirror := by
  have hdeclare : ∀ (t : Carriers) (name : String),
      t.mirror.declare name = (t.declare name).map mirror := by
    intro t name
    unfold declare
    rw [declared_mirror, fromHeader_mirror]
    split
    · rfl
    · split <;> rfl
  induction names generalizing t with
  | nil => rfl
  | cons name names ih =>
    rw [declareAll, declareAll, hdeclare]
    cases t.declare name with
    | error e => rfl
    | ok t => exact ih t

/-- A group is refused for the same reason as in the mirror, or brought in there too. -/
theorem mirror_bringIn (t : Carriers) (kind : InKind) (names : List String) :
    t.mirror.bringIn kind names = (t.bringIn kind names).map mirror := by
  unfold bringIn
  rw [isActive_mirror, mirror_declareAll]
  cases names.find? t.isActive with
  | some name => rfl
  | none =>
    cases t.declareAll names with
    | error e => rfl
    | ok t =>
      refine congrArg Except.ok (List.foldl_hom mirror ?_)
      intro t name
      exact (t.mirror_put ⟨name, none, some ⟨kind, names⟩⟩).symm

theorem InRange.bringIn {t u : Carriers} (h : t.InRange) {kind : InKind} {names : List String}
    (hin : t.bringIn kind names = .ok u) : u.InRange := by
  unfold Carriers.bringIn at hin
  split at hin
  · simp at hin
  · split at hin
    · simp at hin
    · next t₁ hdeclare =>
      obtain rfl := Except.ok.inj hin
      obtain ⟨-, rfl⟩ := declareAll_eq_ok_iff.1 hdeclare
      refine List.foldlRecOn names _ (motive := fun t : Carriers => t.InRange) h ?_
      intro t ht name _
      exact ht.put nofun

end Carriers

end Knitting
