import Knitting.Needle.Basic
import Mathlib.Data.List.Basic

set_option autoImplicit false

/-! # Attempts

A computer's numbers have a greatest one and its sequences an end, and a step beyond them brings the
whole run down. An attempt is a computation in which every such step is looked for: it comes to a
value, or into a trap. Memory is one of the traps. It has room for sequences of `room` entries, and
counts go up to `2 * room + 1`, which is `2 ^ 64 - 1` for the longest sequences of all, those of
`2 ^ 63 - 1` entries. That attempts come to what the machine is said to do, unless memory gives out,
and always with enough of it (`Attempt.Comes`), is shown for one operation after the other. -/

namespace Knitting

/-- How a computation is brought down. -/
inductive Trap where
  /-- An entry beyond the end of a sequence. -/
  | index
  /-- A part of a sequence that is not within it, or that is to be replaced by one of another
  length. -/
  | slice
  /-- A range of keys whose first is above its last. -/
  | range
  /-- A number too large or too small for its kind. -/
  | overflow
  /-- A sequence of that length, which there is no room for. -/
  | memory (length : Nat)
  deriving DecidableEq, Repr

/-- A computation that can be brought down. -/
abbrev Attempt (β : Type) := Except Trap β

namespace Attempt

variable {β γ σ ι : Type}

/-! ## Numbers -/

/-- A sum or difference of needle indices. -/
def index (n : Int) : Attempt Int := if isIndex n then .ok n else .error .overflow

/-- A sum of counts. -/
def count (room n : Nat) : Attempt Nat := if n ≤ 2 * room + 1 then .ok n else .error .overflow

/-- A difference of counts. -/
def less (a b : Nat) : Attempt Nat := if b ≤ a then .ok (a - b) else .error .overflow

/-! ## Sequences -/

/-- The entry at a place. -/
def entry (l : List β) (i : Nat) : Attempt β :=
  match l[i]? with
  | some b => .ok b
  | none => .error .index

/-- The sequence with another entry at a place. -/
def put (l : List β) (i : Nat) (b : β) : Attempt (List β) :=
  if i < l.length then .ok (l.set i b) else .error .index

/-- The entries from one place to before another. -/
def slice (l : List β) (first past : Nat) : Attempt (List β) :=
  if first ≤ past ∧ past ≤ l.length then .ok ((l.drop first).take (past - first))
  else .error .slice

/-- The sequence with other entries from one place to before another. -/
def putSlice (l : List β) (first past : Nat) (new : List β) : Attempt (List β) := do
  let old ← slice l first past
  if new.length = old.length then .ok (l.take first ++ new ++ l.drop past) else .error .slice

/-! ## Memory -/

/-- A sequence that is built as a whole. -/
def store (room : Nat) (l : List β) : Attempt (List β) :=
  if l.length ≤ room then .ok l else .error (.memory l.length)

/-- The sequence with one more entry. -/
def push (room : Nat) (l : List β) (b : β) : Attempt (List β) := store room (l ++ [b])

/-! ## What attempts come to -/

theorem index_eq_ok {n : Int} (h : isIndex n = true) : index n = .ok n := if_pos h

theorem count_eq_ok {room n : Nat} (h : n ≤ 2 * room + 1) : count room n = .ok n := if_pos h

theorem less_eq_ok {a b : Nat} (h : b ≤ a) : less a b = .ok (a - b) := if_pos h

theorem entry_eq_ok {l : List β} {i : Nat} {b : β} (h : l[i]? = some b) : entry l i = .ok b := by
  rw [entry, h]

theorem put_eq_ok {l : List β} {i : Nat} (h : i < l.length) (b : β) :
    put l i b = .ok (l.set i b) := if_pos h

theorem slice_eq_ok {l : List β} {first past : Nat} (h : first ≤ past) (h' : past ≤ l.length) :
    slice l first past = .ok ((l.drop first).take (past - first)) := if_pos ⟨h, h'⟩

/-- A part of a sequence can be replaced by one that is as long. -/
theorem putSlice_eq_ok {l new : List β} {first past : Nat} (h : first ≤ past)
    (h' : past ≤ l.length) (hnew : new.length = past - first) :
    putSlice l first past new = .ok (l.take first ++ new ++ l.drop past) := by
  rw [putSlice, slice_eq_ok h h']
  refine if_pos ?_
  rw [hnew, List.length_take, List.length_drop]
  omega

/-! ## Attempts whatever room there is -/

/-- An attempt comes to `v` whatever room there is, and then `Q` holds, unless memory gives out. It
does not if there is enough room. All this is said only of the rooms of which `P` holds before. -/
def Comes (P : Nat → Prop) (c : Nat → Attempt β) (v : β) (Q : Nat → Prop) : Prop :=
  ∃ enough, ∀ room, P room →
    (∃ n, room < n ∧ n ≤ enough ∧ c room = .error (.memory n)) ∨ c room = .ok v ∧ Q room

variable {P Q R : Nat → Prop} {v : β}

theorem comes_ok (h : ∀ room, P room → Q room) : Comes P (fun _ => .ok v) v Q :=
  ⟨0, fun room hP => .inr ⟨rfl, h room hP⟩⟩

/-- What is supposed of the room can be more, and what is concluded less. -/
theorem Comes.imp {c : Nat → Attempt β} (h : Comes P c v Q) {P' Q' : Nat → Prop}
    (hP : ∀ room, P' room → P room) (hQ : ∀ room, Q room → Q' room) : Comes P' c v Q' := by
  obtain ⟨enough, h⟩ := h
  exact ⟨enough, fun room hP' => (h room (hP room hP')).imp_right (And.imp_right (hQ room))⟩

theorem Comes.of {c : Nat → Attempt β} (h : Comes P c v Q) {P' : Nat → Prop}
    (hP : ∀ room, P' room → P room) : Comes P' c v Q :=
  h.imp hP fun _ => id

theorem ok_bind (v : β) (f : β → Attempt γ) : (Except.ok v >>= f : Attempt γ) = f v := rfl

/-- Attempts one after the other. There is enough room for both if there is for each of them. -/
theorem Comes.bind {c : Nat → Attempt β} (h : Comes P c v Q) {f : Nat → β → Attempt γ} {w : γ}
    (hf : Comes (fun room => P room ∧ Q room) (fun room => f room v) w R) :
    Comes P (fun room => c room >>= f room) w R := by
  obtain ⟨enough, h⟩ := h
  obtain ⟨enough', hf⟩ := hf
  refine ⟨max enough enough', ?_⟩
  intro room hP
  dsimp only
  rcases h room hP with ⟨n, hroom, hn, hc⟩ | ⟨hc, hQ⟩
  · rw [hc]
    exact .inl ⟨n, hroom, Nat.le_trans hn (Nat.le_max_left _ _), rfl⟩
  · rw [hc, ok_bind]
    rcases hf room ⟨hP, hQ⟩ with ⟨n, hroom, hn, hfv⟩ | hfv
    · exact .inl ⟨n, hroom, Nat.le_trans hn (Nat.le_max_right _ _), hfv⟩
    · exact .inr hfv

/-- An attempt after one that needs no memory. -/
theorem Comes.after {f : Nat → β → Attempt γ} {w : γ} (h : Comes P (fun room => f room v) w R)
    {c : Nat → Attempt β} (hc : ∀ room, P room → c room = .ok v) :
    Comes P (fun room => c room >>= f room) w R := by
  obtain ⟨enough, h⟩ := h
  refine ⟨enough, ?_⟩
  intro room hP
  dsimp only
  rw [hc room hP]
  exact h room hP

/-- An attempt that is made only if there is room for a sequence of length `n`. -/
theorem Comes.within {c : Nat → Attempt β} {n : Nat}
    (h : Comes (fun room => P room ∧ n ≤ room) c v Q) :
    Comes P (fun room => if n ≤ room then c room else .error (.memory n)) v Q := by
  obtain ⟨enough, h⟩ := h
  refine ⟨max enough n, ?_⟩
  intro room hP
  by_cases hn : n ≤ room
  · simp only [if_pos hn]
    refine (h room ⟨hP, hn⟩).imp_left ?_
    rintro ⟨n', hroom, hn', hc⟩
    exact ⟨n', hroom, Nat.le_trans hn' (Nat.le_max_left _ _), hc⟩
  · exact .inl ⟨n, Nat.lt_of_not_le hn, Nat.le_max_right _ _, if_neg hn⟩

theorem comes_store (l : List β) :
    Comes P (fun room => store room l) l (fun room => l.length ≤ room) :=
  Comes.within (comes_ok fun _ => And.right)

theorem comes_push (l : List β) (b : β) :
    Comes P (fun room => push room l b) (l ++ [b]) (fun room => (l ++ [b]).length ≤ room) :=
  comes_store (l ++ [b])

/-- A loop whose every turn comes to what it should, as long as an invariant holds. -/
theorem comes_foldlM {f : Nat → σ → ι → Attempt σ} {g : σ → ι → σ} (I : σ → Nat → Prop)
    {l : List ι} (hstep : ∀ s, ∀ i ∈ l, Comes (I s) (fun room => f room s i) (g s i) (I (g s i)))
    (s : σ) : Comes (I s) (fun room => l.foldlM (f room) s) (l.foldl g s) (I (l.foldl g s)) := by
  induction l generalizing s with
  | nil => exact comes_ok fun _ => id
  | cons i l ih =>
    simp only [List.foldlM_cons, List.foldl_cons]
    refine (hstep s i List.mem_cons_self).bind ?_
    have hrest := ih (fun s j hj => hstep s j (List.mem_cons_of_mem i hj)) (g s i)
    exact hrest.of fun _ => And.right

/-- The sequence with more entries, one after the other. -/
theorem comes_foldlM_push (l new : List β) :
    Comes (fun room => l.length ≤ room) (fun room => new.foldlM (push room) l) (l ++ new)
      (fun room => (l ++ new).length ≤ room) := by
  have hfold : new.foldl (fun l b => l ++ [b]) l = l ++ new := by
    rw [List.foldl_append_eq_append, ← List.flatMap_def, List.flatMap_singleton']
  have hcomes := comes_foldlM (g := fun l b => l ++ [b]) (fun l room => l.length ≤ room)
    (l := new) (fun l b _ => comes_push l b) l
  rwa [hfold] at hcomes

/-- An attempt of which nothing is supposed comes to its value or uses up the memory. -/
theorem Comes.exhausts_or_eq_ok {c : Nat → Attempt β} (h : Comes (fun _ => True) c v Q)
    (room : Nat) : (∃ n, room < n ∧ c room = .error (.memory n)) ∨ c room = .ok v := by
  obtain ⟨enough, h⟩ := h
  rcases h room trivial with ⟨n, hroom, -, hc⟩ | ⟨hc, -⟩
  · exact .inl ⟨n, hroom, hc⟩
  · exact .inr hc

/-- And with enough room it comes to its value. -/
theorem Comes.exists_enough {c : Nat → Attempt β} (h : Comes (fun _ => True) c v Q) :
    ∃ enough, ∀ room, enough ≤ room → c room = .ok v := by
  obtain ⟨enough, h⟩ := h
  refine ⟨enough, ?_⟩
  intro room hroom
  rcases h room trivial with ⟨n, hn, hn', -⟩ | ⟨hc, -⟩
  · omega
  · exact hc

/-! ## Loops that need no memory -/

/-- A loop whose every turn comes to what it should. -/
theorem foldlM_eq_ok {f : σ → ι → Attempt σ} {g : σ → ι → σ} {l : List ι}
    (hstep : ∀ s, ∀ i ∈ l, f s i = .ok (g s i)) (s : σ) : l.foldlM f s = .ok (l.foldl g s) := by
  induction l generalizing s with
  | nil => rfl
  | cons i l ih =>
    rw [List.foldlM_cons, hstep s i List.mem_cons_self]
    exact ih (fun s j hj => hstep s j (List.mem_cons_of_mem i hj)) (g s i)

/-- Each entry comes to what it should. -/
theorem mapM_eq_ok {f : ι → Attempt β} {g : ι → β} {l : List ι} (h : ∀ i ∈ l, f i = .ok (g i)) :
    l.mapM f = .ok (l.map g) := by
  induction l with
  | nil => rfl
  | cons i l ih =>
    rw [List.mapM_cons, h i List.mem_cons_self, ih fun j hj => h j (List.mem_cons_of_mem i hj)]
    rfl

end Attempt

end Knitting
