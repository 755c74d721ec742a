import Knitting.Proofs.Machine.BringIns
import Knitting.Proofs.Machine.Reorder

set_option autoImplicit false

/-! # The order of a hash table does not matter

The active carriers are in a hash table, and the order in which that comes up with them is another
one in each run. It can change whenever a carrier comes in or goes out; here it changes before every
request of a session and every line of a program, in any way at all (`HashOrder`). Neither what is
reported nor what is built depends on it (`Machine.hash_order_independent`). -/

namespace Knitting

/-! ## Tables that come up in any order -/

/-- The orders in which a table comes up with its carriers, one time after the other. -/
structure HashOrder where
  order : Nat → List Carrier → List Carrier
  perm : ∀ k l, (order k l).Perm l

/-- The table that always comes up with its carriers as they are kept. -/
def HashOrder.kept : HashOrder := ⟨fun _ l => l, fun _ l => .refl l⟩

/-- A table as it comes up the `k`-th time. -/
def Carriers.comeUp (t : Carriers) (σ : HashOrder) (k : Nat) : Carriers :=
  { t with members := σ.order k t.members }

namespace Carriers

variable {t t' : Carriers}

theorem Reordered.symm (h : t.Reordered t') : t'.Reordered t :=
  ⟨h.declared.symm, h.fromHeader.symm, fun k => (h.get? k).symm, h.nodup', h.nodup, h.allDeclared'⟩

theorem Reordered.comeUp (h : t.Reordered t') (σ σ' : HashOrder) (k : Nat) :
    (t.comeUp σ k).Reordered (t'.comeUp σ' k) := by
  have hup : t.Reordered (t.comeUp σ k) := reordered_of_perm h.nodup h.allDeclared (σ.perm k _)
  have hup' : t'.Reordered (t'.comeUp σ' k) :=
    reordered_of_perm h.nodup' h.allDeclared' (σ'.perm k _)
  exact hup.symm.trans (h.trans hup')

theorem lane?_of_mem_declared {name : String} (h : name ∈ t.declared) :
    t.lane? name = some ⟨t.laneRank name, t.declared.length⟩ := by
  obtain ⟨i, hi⟩ := Option.isSome_iff_exists.1 (List.isSome_idxOf?.2 h)
  simp [Carriers.lane?, Carriers.laneRank, hi]

/-- What the order of the lanes rests on: a name at which there is an active carrier is declared,
and the active carriers are those found at their own names. So they come up by lane, each once, in
whatever order they are kept. -/
structure Keyed (t : Carriers) : Prop where
  declared : ∀ name, t.isActive name = true → name ∈ t.declared
  mem_active_iff : ∀ c, c ∈ t.active ↔ t.get? c.name = some c
  lanes : t.active.Pairwise fun c d =>
    ∃ i j, t.lane? c.name = some i ∧ t.lane? d.name = some j ∧ i.index < j.index
  order : ∀ l, l.Perm t.members → { t with members := l }.active = t.active

theorem keyed (hnames : (t.members.map (·.name)).Nodup) (hdeclared : t.AllDeclared) : t.Keyed where
  declared := hdeclared
  mem_active_iff c := by
    rw [t.active_perm.mem_iff, get?_eq_some_iff hnames]
    exact (and_iff_left rfl).symm
  lanes := by
    refine (pairwise_active_lt hnames hdeclared).imp_of_mem ?_
    intro c d hc hd hlt
    have hmem : ∀ {c : Carrier}, c ∈ t.active → c.name ∈ t.declared := fun hc =>
      mem_declared_of_mem hnames hdeclared (t.active_perm.mem_iff.1 hc)
    exact ⟨_, _, lane?_of_mem_declared (hmem hc), lane?_of_mem_declared (hmem hd), hlt⟩
  order l hl := (reordered_of_perm hnames hdeclared hl).active

end Carriers

/-! ## Sessions -/

namespace Machine

section Sessions

variable {α : Type} {m m' : Machine α}

def comeUp (m : Machine α) (σ : HashOrder) (k : Nat) : Machine α :=
  { m with carriers := m.carriers.comeUp σ k }

theorem Reordered.comeUp (h : m.Reordered m') (σ σ' : HashOrder) (k : Nat) :
    (m.comeUp σ k).Reordered (m'.comeUp σ' k) := by
  obtain ⟨t, h, rfl⟩ := h
  exact ⟨_, h.comeUp σ σ' k, rfl⟩

/-- Machines that differ in the order of their tables have built the same. -/
theorem Reordered.output (h : m.Reordered m') (warnings : List LineWarning) :
    m'.output warnings = m.output warnings := by
  obtain ⟨t, h, rfl⟩ := h
  rw [Machine.output, h.declared]
  rfl

variable [Scalar α]

/-- What a request is answered: whether it fails, or else what it warns of, and what happens. -/
def answer (m : Machine α) : Request → Except Error (Option Warning) × List Event
  | .header names => (.ok (m.carriers.declareHeader names).2, [])
  | .execute i => ((m.execute i).outcome, (m.execute i).events)

/-- The answers to some requests, whose table comes up in the orders from the `k`-th on. -/
def answers (σ : HashOrder) (k : Nat) (m : Machine α) :
    List Request → List (Except Error (Option Warning) × List Event)
  | [] => []
  | r :: rs => (m.comeUp σ k).answer r :: answers σ (k + 1) ((m.comeUp σ k).handle r) rs

/-- The machine after some requests, whose table comes up in the orders from the `k`-th on. -/
def handleAllIn (σ : HashOrder) (k : Nat) (m : Machine α) : List Request → Machine α
  | [] => m
  | r :: rs => handleAllIn σ (k + 1) ((m.comeUp σ k).handle r) rs

theorem handleAllIn_kept (k : Nat) (m : Machine α) (rs : List Request) :
    handleAllIn .kept k m rs = m.handleAll rs := by
  induction rs generalizing k m with
  | nil => rfl
  | cons r rs ih => exact ih (k + 1) (m.handle r)

/-- A request is answered the same whatever the order of the table. -/
theorem Reordered.handle (h : m.Reordered m') (r : Request) :
    m'.answer r = m.answer r ∧ (m.handle r).Reordered (m'.handle r) := by
  cases r with
  | header names =>
    obtain ⟨t, h, rfl⟩ := h
    obtain ⟨hheader, hwarning⟩ := h.declareHeader names
    refine ⟨?_, _, hheader, rfl⟩
    dsimp only [answer]
    rw [hwarning]
  | execute i =>
    obtain ⟨hmachine, houtcome, hevents⟩ := h.execute i
    exact ⟨Prod.ext houtcome hevents, hmachine⟩

theorem Reordered.session (h : m.Reordered m') (σ σ' : HashOrder) (k : Nat) (rs : List Request) :
    answers σ' k m' rs = answers σ k m rs ∧
      (handleAllIn σ k m rs).Reordered (handleAllIn σ' k m' rs) := by
  induction rs generalizing k m m' with
  | nil => exact ⟨rfl, h⟩
  | cons r rs ih =>
    obtain ⟨hanswer, hnext⟩ := (h.comeUp σ σ' k).handle r
    obtain ⟨hrest, hlast⟩ := ih hnext (k + 1)
    exact ⟨congrArg₂ List.cons hanswer hrest, hlast⟩

omit [Scalar α] in
/-- No carrier is active at first. -/
theorem reordered_start (config : Config α) (lines : List (List Char)) :
    let start : Machine α := { initial config with carriers := Program.carriersBefore lines }
    start.Reordered start := by
  have hmembers : (Program.carriersBefore lines).members = [] := by
    unfold Program.carriersBefore
    split <;> rfl
  refine ⟨_, .refl ?_ ?_, rfl⟩
  · simp [hmembers]
  · intro name hname
    simp [Carriers.isActive, Carriers.get?, hmembers] at hname

end Sessions

end Machine

/-! ## Programs -/

namespace Program

open Machine

variable {α : Type} [Scalar α] {config : Config α} {m m' : Machine α}

/-- Runs lines whose table comes up in another order for each of them. -/
def runLinesIn (σ : HashOrder) (m : Machine α) (number : Nat) :
    List (List Char) → Run (Machine α)
  | [] => ⟨[], .ok m⟩
  | line :: rest =>
    (runLine (m.comeUp σ number) number line).andThen fun m => runLinesIn σ m (number + 1) rest

def runMachineIn (σ : HashOrder) (config : Config α) (lines : List (List Char)) :
    Run (Machine α) :=
  (checkVersion config.maxVersion lines).andThen fun () =>
    runLinesIn σ { Machine.initial config with carriers := carriersBefore lines } 1 lines

/-- Runs a program whose table comes up in another order for each line. -/
def runIn (σ : HashOrder) (config : Config α) (source : String) : Run (Output α) :=
  let r := runMachineIn σ config (Text.lines source.toList)
  ⟨r.log, r.result.map fun m => m.output r.warnings⟩

theorem runLinesIn_kept (m : Machine α) (number : Nat) (lines : List (List Char)) :
    runLinesIn .kept m number lines = runLines m number lines := by
  induction lines generalizing m number with
  | nil => rfl
  | cons line rest ih =>
    rw [runLinesIn, runLines]
    congr 1
    funext m
    exact ih m (number + 1)

theorem runIn_kept (config : Config α) (source : String) :
    runIn .kept config source = run config source := by
  simp only [runIn, run, runMachineIn, runMachine, runLinesIn_kept]

/-- Two runs log the same and fail alike, or come to machines that differ in the order of their
tables only. -/
def SameRun (r r' : Run (Machine α)) : Prop :=
  r'.log = r.log ∧ ((∃ e, r.result = .error e ∧ r'.result = .error e) ∨
    ∃ m m', r.result = .ok m ∧ r'.result = .ok m' ∧ m.Reordered m')

omit [Scalar α] in
theorem reordered_runHeader (h : m.Reordered m') (number : Nat) (line : List Char) :
    (runHeader m number line).1.Reordered (runHeader m' number line).1 ∧
      (runHeader m' number line).2 = (runHeader m number line).2 := by
  obtain ⟨t, h, rfl⟩ := h
  unfold runHeader
  cases header? line with
  | none => exact ⟨⟨t, h, rfl⟩, rfl⟩
  | some names =>
    obtain ⟨hheader, hwarning⟩ := h.declareHeader names
    exact ⟨⟨_, hheader, rfl⟩, by dsimp only; rw [hwarning]⟩

theorem sameRun_runLine (h : m.Reordered m') (number : Nat) (line : List Char) :
    SameRun (runLine m number line) (runLine m' number line) := by
  obtain ⟨hstart, hlog⟩ := reordered_runHeader h number line
  unfold runLine
  dsimp only
  rw [hlog]
  cases Instruction.parse (code line) with
  | error e => exact ⟨rfl, .inl ⟨_, rfl, rfl⟩⟩
  | ok parsed =>
    cases parsed with
    | none => exact ⟨rfl, .inr ⟨_, _, rfl, rfl, hstart⟩⟩
    | some i =>
      obtain ⟨hmachine, houtcome, hevents⟩ := hstart.execute i
      dsimp only
      rw [houtcome, hevents]
      cases ((runHeader m number line).1.execute i).outcome with
      | error e => exact ⟨rfl, .inl ⟨_, rfl, rfl⟩⟩
      | ok w =>
        cases w with
        | none => exact ⟨rfl, .inr ⟨_, _, rfl, rfl, hmachine⟩⟩
        | some w => exact ⟨rfl, .inr ⟨_, _, rfl, rfl, hmachine⟩⟩

omit [Scalar α] in
/-- Runs that go on alike. -/
theorem SameRun.andThen {r r' : Run (Machine α)} (h : SameRun r r')
    {f f' : Machine α → Run (Machine α)}
    (hf : ∀ m m', m.Reordered m' → SameRun (f m) (f' m')) :
    SameRun (r.andThen f) (r'.andThen f') := by
  obtain ⟨hlog, ⟨e, herror, herror'⟩ | ⟨m, m', hok, hok', hm⟩⟩ := h
  · unfold Run.andThen
    rw [herror, herror']
    exact ⟨hlog, .inl ⟨e, rfl, rfl⟩⟩
  · obtain ⟨hnext, hresult⟩ := hf m m' hm
    unfold Run.andThen
    rw [hok, hok']
    exact ⟨congrArg₂ (· ++ ·) hlog hnext, hresult⟩

omit [Scalar α] in
/-- What a run comes to, which is a machine whose table may be in another order, is keyed. -/
theorem SameRun.keyed {r r' : Run (Machine α)} (h : SameRun r r') (hm : r.result = .ok m) :
    m.carriers.Keyed := by
  obtain ⟨-, ⟨e, herror, -⟩ | ⟨m, m', hok, -, t, ht, -⟩⟩ := h
  · rw [herror] at hm
    cases hm
  · rw [hok] at hm
    cases hm
    exact Carriers.keyed ht.nodup ht.allDeclared

theorem sameRun_runLinesIn (h : m.Reordered m') (σ σ' : HashOrder) (number : Nat)
    (lines : List (List Char)) :
    SameRun (runLinesIn σ m number lines) (runLinesIn σ' m' number lines) := by
  induction lines generalizing m m' number with
  | nil => exact ⟨rfl, .inr ⟨m, m', rfl, rfl, h⟩⟩
  | cons line rest ih =>
    exact (sameRun_runLine (h.comeUp σ σ' number) number line).andThen fun _ _ hm => ih hm _

theorem sameRun_runMachineIn (σ σ' : HashOrder) (config : Config α) (lines : List (List Char)) :
    SameRun (runMachineIn σ config lines) (runMachineIn σ' config lines) := by
  have hlines := sameRun_runLinesIn (reordered_start config lines) σ σ' 1 lines
  unfold runMachineIn Run.andThen
  cases (checkVersion config.maxVersion lines).result with
  | error e => exact ⟨rfl, .inl ⟨e, rfl, rfl⟩⟩
  | ok =>
    dsimp only
    exact ⟨congrArg ((checkVersion config.maxVersion lines).log ++ ·) hlines.1, hlines.2⟩

theorem runIn_eq (σ σ' : HashOrder) (config : Config α) (source : String) :
    runIn σ' config source = runIn σ config source := by
  obtain ⟨hlog, hresult⟩ := sameRun_runMachineIn σ σ' config (Text.lines source.toList)
  unfold runIn Run.warnings
  dsimp only
  rw [hlog]
  rcases hresult with ⟨e, herror, herror'⟩ | ⟨m, m', hok, hok', hm⟩
  · rw [herror, herror']
  · rw [hok, hok']
    simp only [Except.map, hm.output]

end Program

/-! ## Independence -/

namespace Machine

variable {α : Type} [Scalar α]

/-- In whatever orders a hash table comes up with the active carriers, at every state of a session
and after every line of a program each of them is found at its own name and declared, so that by
lane they come up in one order only. Two sessions with the same requests answer the same and come to
the same passes, kicks and fabric, and two runs of a program log the same and come to the same, be
it a result or an error. -/
theorem hash_order_independent (σ σ' : HashOrder) (config : Config α) (lines : List (List Char))
    (rs : List Request) (source : String) :
    let start : Machine α := { initial config with carriers := Program.carriersBefore lines }
    let m := handleAllIn σ 0 start rs
    let m' := handleAllIn σ' 0 start rs
    (m.carriers.Keyed ∧ ∀ n p,
        (Program.runLinesIn σ start 1 (lines.take n)).result = .ok p → p.carriers.Keyed) ∧
      (answers σ' 0 start rs = answers σ 0 start rs ∧
        m'.schedule = m.schedule ∧ m'.kicks = m.kicks ∧ m'.fabric = m.fabric ∧
        m'.hook = m.hook ∧ m'.racking = m.racking ∧
        m'.carriers.declared = m.carriers.declared ∧ m'.carriers.active = m.carriers.active) ∧
      Program.runIn σ' config source = Program.runIn σ config source := by
  intro start m m'
  have hstart : start.Reordered start := reordered_start config lines
  obtain ⟨hanswers, t, ht, hm'⟩ := hstart.session σ σ' 0 rs
  have hm' : m' = { m with carriers := t } := hm'
  refine ⟨⟨Carriers.keyed ht.nodup ht.allDeclared, ?_⟩, ⟨hanswers, ?_⟩,
    Program.runIn_eq σ σ' config source⟩
  · intro n p hp
    exact (Program.sameRun_runLinesIn hstart σ σ 1 (lines.take n)).keyed hp
  · rw [hm']
    exact ⟨rfl, rfl, rfl, rfl, rfl, ht.declared, ht.active⟩

end Machine

end Knitting
