import Knitting.Proofs.Machine.BringIns

set_option autoImplicit false

/-! # The life of a carrier

A carrier is brought in, stitches, and is taken out, over and over (`LifeCycle`). A session without
errors keeps every carrier to this, instruction by instruction: who is brought in was out, and who
is taken out was in and has stitched since (`Life.Step`). A list of carriers is checked as a whole
before any of it is brought in or taken out, though, so one that names a carrier twice passes, and
brings the same carrier in or takes it out twice over (`Machine.carrier_life_cycle`). -/

namespace Knitting

/-! ## Life cycles -/

/-- What happens to a carrier. -/
inductive Mark where
  | activated
  | stitched
  | removed
  deriving DecidableEq, Repr

/-- A carrier comes in or goes out. -/
def Mark.isTurn : Mark → Bool
  | .activated => true
  | .stitched => false
  | .removed => true

/-- Activations and removals alternate, from an activation on, and between an activation and the
next removal there is a stitch. -/
structure LifeCycle (marks : List Mark) : Prop where
  alternate : ∀ (i : Nat) (m : Mark), (marks.filter Mark.isTurn)[i]? = some m →
    m = if i % 2 = 0 then .activated else .removed
  stitched : ∀ before between after, marks = before ++ .activated :: between ++ .removed :: after →
    (∀ m ∈ between, m.isTurn = false) → .stitched ∈ between

namespace LifeCycle

variable {marks : List Mark}

theorem nil : LifeCycle [] := ⟨by simp, by simp⟩

/-- A life cycle goes on with a mark that is the next turn, if it is one, and that comes after a
stitch, if it is a removal. -/
theorem concat (h : LifeCycle marks) {m : Mark}
    (hturn : m.isTurn = true →
      m = if (marks.filter Mark.isTurn).length % 2 = 0 then .activated else .removed)
    (hstitched : m = .removed → ∀ before between, marks = before ++ .activated :: between →
      (∀ m ∈ between, m.isTurn = false) → .stitched ∈ between) :
    LifeCycle (marks ++ [m]) where
  alternate i m' hm' := by
    rw [List.filter_append, List.getElem?_append] at hm'
    split at hm'
    · exact h.alternate i m' hm'
    · next hlast =>
      cases hm : m.isTurn with
      | false => simp [hm] at hm'
      | true =>
        -- The only turn of the last mark is the mark itself.
        rw [List.filter_singleton, hm, cond_true, List.getElem?_singleton] at hm'
        split at hm'
        · next hzero =>
          have hi : i = (marks.filter Mark.isTurn).length := by omega
          rw [← Option.some.inj hm', hi]
          exact hturn hm
        · simp at hm'
  stitched before between after hmarks hbetween := by
    rcases List.eq_nil_or_concat' after with rfl | ⟨after, last, rfl⟩
    · obtain ⟨hbefore, hlast⟩ := List.append_inj' hmarks rfl
      exact hstitched (List.cons.inj hlast).1 before between hbefore hbetween
    · rw [← List.cons_append, ← List.append_assoc] at hmarks
      exact h.stitched before between after (List.append_inj' hmarks rfl).1 hbetween

/-- No carrier comes in or goes out twice over. -/
theorem not_twice {m : Mark} (hm : m.isTurn = true) (before after : List Mark) :
    ¬LifeCycle (before ++ m :: m :: after) := by
  intro h
  have hfilter : (before ++ m :: m :: after).filter Mark.isTurn =
      before.filter Mark.isTurn ++ m :: m :: after.filter Mark.isTurn := by
    simp [List.filter_append, hm]
  have hfirst := h.alternate (before.filter Mark.isTurn).length m (by simp [hfilter])
  have hsecond := h.alternate ((before.filter Mark.isTurn).length + 1) m (by simp [hfilter])
  rw [hfirst] at hsecond
  split at hsecond <;> split at hsecond <;> first | omega | simp at hsecond

end LifeCycle

/-! ## Where in its life a carrier is -/

inductive Life where
  | out
  /-- In, but it has not stitched since. -/
  | unused
  | used
  deriving DecidableEq, Repr

/-- What can happen to a carrier, and where in its life it is then. -/
inductive Life.Step : Life → Mark → Life → Prop where
  | activate : Step .out .activated .unused
  | stitch {l : Life} (h : l ≠ .out) : Step l .stitched .used
  | remove : Step .used .removed .out

/-- A carrier that some marks have brought to where it is in its life. -/
structure Lived (marks : List Mark) (l : Life) : Prop where
  lifeCycle : LifeCycle marks
  turns : (marks.filter Mark.isTurn).length % 2 = if l = .out then 0 else 1
  used : l = .used → ∀ before between, marks = before ++ .activated :: between →
    (∀ m ∈ between, m.isTurn = false) → .stitched ∈ between

theorem lived_nil : Lived [] .out := ⟨.nil, rfl, nofun⟩

theorem Lived.step {marks : List Mark} {l l' : Life} {m : Mark} (h : Lived marks l)
    (hm : l.Step m l') : Lived (marks ++ [m]) l' := by
  have hturns := h.turns
  cases hm with
  | activate =>
    rw [if_pos rfl] at hturns
    refine ⟨h.lifeCycle.concat (fun _ => by rw [if_pos hturns]) nofun, ?_, nofun⟩
    simp only [List.filter_append, List.length_append]
    change (_ + 1) % 2 = 1
    omega
  | stitch hin =>
    rw [if_neg hin] at hturns
    refine ⟨h.lifeCycle.concat nofun nofun, ?_, ?_⟩
    · simpa [Mark.isTurn] using hturns
    · -- What follows the last activation ends with this stitch.
      intro _ before between hmarks _
      rcases List.eq_nil_or_concat' between with rfl | ⟨between, last, rfl⟩
      · simp at hmarks
      · rw [← List.cons_append, ← List.append_assoc] at hmarks
        rw [(List.cons.inj (List.append_inj' hmarks rfl).2).1]
        exact List.mem_concat_self
  | remove =>
    rw [if_neg (by decide)] at hturns
    refine ⟨h.lifeCycle.concat (fun _ => by rw [if_neg (by omega)]) fun _ => h.used rfl, ?_, nofun⟩
    simp only [List.filter_append, List.length_append]
    change (_ + 1) % 2 = 0
    omega

/-! ## What instructions do to a carrier -/

/-- The carriers that an instruction takes out. -/
def Instruction.takenOut : Instruction → List String
  | .takeOut _ names => names
  | _ => []

/-- What an instruction does to a carrier, once for each time that it names it as coming in or going
out. -/
def Instruction.marks (name : String) (i : Instruction) : List Mark :=
  List.replicate (i.broughtIn.count name) .activated ++
    (if name ∈ i.users then [.stitched] else []) ++
    List.replicate (i.takenOut.count name) .removed

def Request.marks (name : String) : Request → List Mark
  | .header _ => []
  | .execute i => i.marks name

theorem Instruction.marks_eq_nil {i : Instruction} (hin : i.broughtIn = []) (hout : i.takenOut = [])
    {name : String} (hname : name ∉ i.users) : i.marks name = [] := by
  simp [marks, hin, hout, hname]

theorem Instruction.length_marks_le {i : Instruction} {name : String}
    (hin : i.broughtIn.count name ≤ 1) (hout : i.takenOut.count name ≤ 1) :
    (i.marks name).length ≤ 1 := by
  have huse : (if name ∈ i.users then [Mark.stitched] else []).length ≤ 1 := by split <;> simp
  simp only [marks, List.length_append, List.length_replicate]
  cases i with
  | bringIn => simpa [takenOut, users] using hin
  | takeOut => simpa [broughtIn, users] using hout
  | _ => simpa [broughtIn, takenOut] using huse

/-- Taken as a set, a list that names a carrier is one mark of it. -/
theorem take_one_replicate {names : List String} {name : String} (h : name ∈ names) (m : Mark) :
    (List.replicate (names.count name) m).take 1 = [m] := by
  rw [List.take_replicate, Nat.min_eq_left (List.count_pos_iff.2 h)]
  rfl

namespace Carriers

variable {t t' : Carriers}

/-- Where in its life a carrier is. -/
def life (t : Carriers) (name : String) : Life :=
  match t.get? name with
  | none => .out
  | some c => if c.last.isSome then .used else .unused

theorem life_eq_out_iff {name : String} : t.life name = .out ↔ t.get? name = none := by
  unfold life
  cases t.get? name with
  | none => simp
  | some c => cases h : c.last <;> simp [h]

theorem life_eq_used_iff {name : String} :
    t.life name = .used ↔ ∃ c, t.get? name = some c ∧ c.last.isSome = true := by
  unfold life
  cases t.get? name with
  | none => simp
  | some c => cases h : c.last <;> simp [h]

theorem life_congr {name : String} (h : t'.get? name = t.get? name) :
    t'.life name = t.life name := by
  rw [life, h, life]

/-- A kick takes a carrier no further in its life. -/
theorem Moved.life (h : t.Moved t') (name : String) : t'.life name = t.life name := by
  obtain ⟨f, hf, rfl⟩ := h
  unfold Carriers.life
  rw [get?_mapMembers fun c => (hf c).1]
  cases t.get? name with
  | none => rfl
  | some c => simp only [Option.map_some, (hf c).2.2]

end Carriers

namespace Machine

section Execute

variable {α : Type} {m : Machine α}

theorem carriers_of_bringIn {kind : InKind} {names : List String}
    (h : (m.bringIn kind names).Succeeds) :
    m.carriers.bringIn kind names = .ok (m.bringIn kind names).machine.carriers := by
  unfold bringIn at h ⊢
  split at h
  · exact absurd h (not_succeeds_fail _ _)
  · next hnames =>
    rw [if_neg hnames]
    split at h
    · exact absurd h (not_succeeds_fail _ _)
    · next t hin =>
      rw [hin]
      cases kind with
      | plain => rfl
      | hook =>
        dsimp only
        split <;> rfl

theorem carriers_of_takeOut {withHook : Bool} {names : List String}
    (h : (m.takeOut withHook names).Succeeds) :
    (m.takeOut withHook names).machine.carriers = m.carriers.removeAll names := by
  unfold takeOut at h ⊢
  split at h
  · exact absurd h (not_succeeds_fail _ _)
  · next hnames =>
    rw [if_neg hnames]
    split at h
    · exact absurd h (not_succeeds_fail _ _)
    · dsimp only at h ⊢
      split at h
      · exact absurd h (not_succeeds_fail _ _)
      · rfl

/-- An instruction leads from one machine to another and to a carrier it does what it has as a mark,
each list taken as a set. -/
def Marks (m : Machine α) (i : Instruction) (m' : Machine α) (name : String) : Prop :=
  (i.marks name = [] ∧ m'.carriers.life name = m.carriers.life name) ∨
    ∃ mark, (i.marks name).take 1 = [mark] ∧
      (m.carriers.life name).Step mark (m'.carriers.life name)

theorem marks_bringIn {kind : InKind} {names : List String} (h : (m.bringIn kind names).Succeeds)
    (name : String) : m.Marks (.bringIn kind names) (m.bringIn kind names).machine name := by
  have hin := carriers_of_bringIn h
  have hget := (Carriers.bringIn_spec hin).2.2 name
  by_cases hname : name ∈ names
  · have hout : m.carriers.life name = .out := by
      rw [Carriers.life_eq_out_iff, ← Carriers.isActive_eq_false_iff]
      exact (bringIn_succeeds_iff.1 h).2.1 name hname
    have hlife : (m.bringIn kind names).machine.carriers.life name = .unused := by
      rw [Carriers.life, hget, if_pos hname]
      rfl
    refine .inr ⟨.activated, ?_, ?_⟩
    · simpa [Instruction.marks, Instruction.broughtIn, Instruction.users, Instruction.takenOut]
        using take_one_replicate hname .activated
    · rw [hout, hlife]
      exact .activate
  · refine .inl ⟨?_, Carriers.life_congr (by rw [hget, if_neg hname])⟩
    simp [Instruction.marks, Instruction.broughtIn, Instruction.users, Instruction.takenOut,
      List.count_eq_zero_of_not_mem hname]

theorem marks_takeOut {withHook : Bool} {names : List String}
    (h : (m.takeOut withHook names).Succeeds) (name : String) :
    m.Marks (.takeOut withHook names) (m.takeOut withHook names).machine name := by
  unfold Marks
  rw [carriers_of_takeOut h]
  by_cases hname : name ∈ names
  · have hused : m.carriers.life name = .used :=
      Carriers.life_eq_used_iff.2 ((takeOut_succeeds_iff.1 h).2.1 name hname)
    have hlife : (m.carriers.removeAll names).life name = .out := by
      rw [Carriers.life_eq_out_iff, Carriers.get?_removeAll, if_pos hname]
    refine .inr ⟨.removed, ?_, ?_⟩
    · simpa [Instruction.marks, Instruction.broughtIn, Instruction.users, Instruction.takenOut]
        using take_one_replicate hname .removed
    · rw [hused, hlife]
      exact .remove
  · refine .inl ⟨?_, Carriers.life_congr (by rw [Carriers.get?_removeAll, if_neg hname])⟩
    simp [Instruction.marks, Instruction.broughtIn, Instruction.users, Instruction.takenOut,
      List.count_eq_zero_of_not_mem hname]

/-- Who is used stitches, and was in. -/
theorem marks_of_uses {i : Instruction} {m' : Machine α} (hin : i.broughtIn = [])
    (hout : i.takenOut = []) (h : m.Uses i.users m') (name : String) : m.Marks i m' name := by
  obtain ⟨kind, slot, op, direction, last, t, p, r, huse, hsubmit, -, hcarriers⟩ := h
  obtain ⟨hactive, rfl, -⟩ := use_eq_ok_iff.1 huse
  unfold Marks
  rw [hcarriers, (Schedule.moved_submit hsubmit).life]
  have hget := get?_used m.carriers i.users last name
  by_cases hname : name ∈ i.users
  · obtain ⟨c, hc⟩ := Carriers.isActive_iff.1 (hactive name hname)
    have hlife : ((takePending m.carriers i.users).1.park i.users last).life name = .used := by
      rw [Carriers.life, hget, hc, Option.map_some, if_pos hname]
      rfl
    refine .inr ⟨.stitched, by simp [Instruction.marks, hin, hout, hname], ?_⟩
    rw [hlife]
    refine .stitch ?_
    simp [Carriers.life_eq_out_iff, hc]
  · refine .inl ⟨Instruction.marks_eq_nil hin hout hname, Carriers.life_congr ?_⟩
    rw [hget]
    simp [hname]

variable [Scalar α]

/-- An instruction that brings no carrier in and takes none out moves those that it uses on. -/
theorem marks_of_neither {i : Instruction} (hin : i.broughtIn = []) (hout : i.takenOut = [])
    (h : (m.execute i).Succeeds) (name : String) : m.Marks i (m.execute i).machine name := by
  by_cases husers : i.users = []
  · have hmarks : i.marks name = [] := Instruction.marks_eq_nil hin hout (by simp [husers])
    have heffect := effect_of_succeeds h
    generalize (m.execute i).machine = m' at heffect ⊢
    cases heffect with
    | idle => exact .inl ⟨hmarks, rfl⟩
    | bringIn hnames => exact absurd hin hnames
    | releaseHook => exact .inl ⟨hmarks, rfl⟩
    | takeOut hnames => exact absurd hout hnames
    | rack => exact .inl ⟨hmarks, rfl⟩
    | bare _ hsubmit => exact .inl ⟨hmarks, (Schedule.moved_submit hsubmit).life name⟩
    | yarn hi hnames => rcases hi with ⟨op, rfl⟩ | ⟨target, rfl⟩ <;> exact absurd husers hnames
  · exact marks_of_uses hin hout (uses_of_succeeds h husers) name

/-- What an instruction that succeeds does to a carrier. -/
theorem marks_execute {i : Instruction} (h : (m.execute i).Succeeds) (name : String) :
    m.Marks i (m.execute i).machine name := by
  cases i with
  | bringIn kind names => exact marks_bringIn h name
  | takeOut withHook names => exact marks_takeOut h name
  | _ => exact marks_of_neither rfl rfl h name

end Execute

/-! ## Sessions -/

section Sessions

variable {α : Type} [Scalar α] {config : Config α} {m : Machine α}

/-- The instructions among some requests succeed, one after the other. -/
def RunsThrough (m : Machine α) : List Request → Prop
  | [] => True
  | r :: rs => (∀ i, r = .execute i → (m.execute i).Succeeds) ∧ (m.handle r).RunsThrough rs

theorem runsThrough_execute {i : Instruction} {rs : List Request} {w : Option Warning}
    (hok : (m.execute i).outcome = .ok w) (h : (m.handle (.execute i)).RunsThrough rs) :
    m.RunsThrough (.execute i :: rs) := by
  refine ⟨?_, h⟩
  rintro _ ⟨⟩
  exact ⟨w, hok⟩

/-- A carrier lives on with every request that is carried out. -/
theorem lived_handle {marks : List Mark} {name : String} (h : Lived marks (m.carriers.life name))
    {r : Request} (hr : ∀ i, r = .execute i → (m.execute i).Succeeds) :
    Lived (marks ++ (r.marks name).take 1) ((m.handle r).carriers.life name) := by
  cases r with
  | header names =>
    have hlife : (m.handle (.header names)).carriers.life name = m.carriers.life name :=
      Carriers.life_congr (by
        rw [Carriers.get?, Carriers.get?, handle, members_declareHeader])
    rw [hlife]
    simpa [Request.marks] using h
  | execute i =>
    simp only [Request.marks, handle]
    rcases marks_execute (hr i rfl) name with ⟨hmarks, hlife⟩ | ⟨mark, hmark, hstep⟩
    · simpa [hmarks, hlife] using h
    · rw [hmark]
      exact h.step hstep

theorem lived_handleAll {marks : List Mark} {name : String} (h : Lived marks (m.carriers.life name))
    {rs : List Request} (hrs : m.RunsThrough rs) :
    Lived (marks ++ rs.flatMap fun r => (r.marks name).take 1)
      ((m.handleAll rs).carriers.life name) := by
  induction rs generalizing m marks with
  | nil => simpa [handleAll] using h
  | cons r rs ih =>
    rw [List.flatMap_cons, ← List.append_assoc]
    exact ih (lived_handle h hrs.1) hrs.2

theorem not_lifeCycle_of_repeated {rs : List Request} {r : Request} (hr : r ∈ rs) {name : String}
    {mark : Mark} (hmark : mark.isTurn = true) {before after : List Mark}
    (h : r.marks name = before ++ mark :: mark :: after) :
    ¬LifeCycle (rs.flatMap (·.marks name)) := by
  obtain ⟨earlier, later, rfl⟩ := List.append_of_mem hr
  have hmarks : (earlier ++ r :: later).flatMap (·.marks name) =
      (earlier.flatMap (·.marks name) ++ before) ++ mark :: mark ::
        (after ++ later.flatMap (·.marks name)) := by
    simp [h]
  rw [hmarks]
  exact LifeCycle.not_twice hmark _ _

/-- In a session without errors the life of every carrier is a life cycle if each list of carriers
that come in or go out is taken as a set. As long as no such list names the carrier twice this is
what the lists say name by name, and otherwise it is not. -/
theorem carrier_life_cycle {names : List String} {carriers : Carriers} {rs : List Request}
    (hdeclared : Carriers.empty.declareAll names = .ok carriers)
    (hrs : ({ initial config with carriers } : Machine α).RunsThrough rs) (name : String) :
    LifeCycle (rs.flatMap fun r => (r.marks name).take 1) ∧
      (LifeCycle (rs.flatMap (·.marks name)) ↔
        ∀ i, .execute i ∈ rs → i.broughtIn.count name ≤ 1 ∧ i.takenOut.count name ≤ 1) := by
  have hstart : carriers.life name = .out := by
    obtain ⟨-, rfl⟩ := Carriers.declareAll_eq_ok_iff.1 hdeclared
    rfl
  have hnew : Lived [] (carriers.life name) := hstart ▸ lived_nil
  have hlived := lived_handleAll hnew hrs
  rw [List.nil_append] at hlived
  refine ⟨hlived.lifeCycle, ?_, ?_⟩
  · intro hlife i hi
    constructor
    · by_contra hmany
      obtain ⟨k, hk⟩ := Nat.exists_eq_add_of_le' (Nat.lt_of_not_le hmany)
      have hmarks : (Request.execute i).marks name = [] ++ Mark.activated :: Mark.activated ::
          (List.replicate k Mark.activated ++ (if name ∈ i.users then [Mark.stitched] else []) ++
            List.replicate (i.takenOut.count name) Mark.removed) := by
        rw [Request.marks, Instruction.marks, hk]
        rfl
      exact not_lifeCycle_of_repeated hi rfl hmarks hlife
    · by_contra hmany
      obtain ⟨k, hk⟩ := Nat.exists_eq_add_of_le' (Nat.lt_of_not_le hmany)
      have hmarks : (Request.execute i).marks name =
          (List.replicate (i.broughtIn.count name) Mark.activated ++
            (if name ∈ i.users then [Mark.stitched] else [])) ++
          Mark.removed :: Mark.removed :: List.replicate k Mark.removed := by
        rw [Request.marks, Instruction.marks, hk]
        rfl
      exact not_lifeCycle_of_repeated hi rfl hmarks hlife
  · intro honce
    have hmarks : ∀ r ∈ rs, (r.marks name).take 1 = r.marks name := by
      intro r hr
      refine List.take_of_length_le ?_
      cases r with
      | header => exact Nat.zero_le 1
      | execute i => exact Instruction.length_marks_le (honce i hr).1 (honce i hr).2
    rw [← List.flatMap_congr hmarks]
    exact hlived.lifeCycle

/-- A carrier comes in a second time after it stitched and went out. -/
theorem carrier_life_cycle_of_two :
    let rs : List Request := [.execute (.bringIn .plain ["A"]),
      .execute (.stitch .knit .right (.front 0) ["A"]), .execute (.takeOut false ["A"]),
      .execute (.bringIn .hook ["B", "A"])]
    rs.flatMap (·.marks "A") = [.activated, .stitched, .removed, .activated] ∧
      LifeCycle (rs.flatMap (·.marks "A")) := by
  intro rs
  have hrs : ({ initial Config.standard with carriers := .empty } : Machine Float32).RunsThrough
      rs := by
    refine runsThrough_execute (w := none) (by decide +kernel) ?_
    refine runsThrough_execute (w := none) (by decide +kernel) ?_
    refine runsThrough_execute (w := none) (by decide +kernel) ?_
    refine runsThrough_execute (w := none) (by decide +kernel) ?_
    trivial
  have hdeclared : Carriers.empty.declareAll [] = .ok .empty := rfl
  refine ⟨by decide, (carrier_life_cycle hdeclared hrs "A").2.2 ?_⟩
  intro i hi
  simp only [rs, List.mem_cons, Request.execute.injEq, List.not_mem_nil, or_false] at hi
  rcases hi with rfl | rfl | rfl | rfl <;> decide

/-- One list can bring the same carrier in twice over. -/
theorem twice_in_one_list :
    ¬∀ (rs : List Request) (name : String),
      (initial Config.standard : Machine Float32).RunsThrough rs →
        LifeCycle (rs.flatMap (·.marks name)) := by
  intro h
  have hrs : (initial Config.standard : Machine Float32).RunsThrough
      [.execute (.bringIn .plain ["1", "1"])] :=
    runsThrough_execute (w := none) (by decide +kernel) trivial
  exact LifeCycle.not_twice rfl [] [] (h _ "1" hrs)

end Sessions

end Machine

end Knitting
