import Knitting.Proofs.Machine.Legal
import Knitting.Proofs.Machine.Session
import Knitting.Proofs.Mirror.Machine
import Mathlib

set_option autoImplicit false

/-! # Left and right, a session

A session of images keeps the image of the machine that the session keeps
(`Machine.Mirrors.session`), also past failures. So nothing that a machine makes of instructions
that were read depends on which side is called left (`Machine.left_right_symmetric`). -/

namespace Knitting

/-! ## Instructions that were read -/

namespace Instruction

theorem directed_ne_undirected {direction : Direction} (hdirection : direction ≠ .undirected)
    {names : List String} (hnames : names ≠ []) : directed direction names ≠ .undirected := by
  unfold directed
  rw [if_neg (by simpa using hnames)]
  exact hdirection

/-- An instruction that was read has a direction if it works with yarn. -/
theorem IsParsed.isDirected {i : Instruction} (h : i.IsParsed) : i.IsDirected := by
  cases h.read with
  | stitch _ hdirection _ _ => exact directed_ne_undirected hdirection
  | split hdirection _ _ _ => exact directed_ne_undirected hdirection
  | _ => trivial

end Instruction

/-! ## What a session comes to -/

/-- What is put out with left and right exchanged: the same carriers and kicks, passes that are the
images of each other, records of the same shape in the same order, each point as deep and as high as
the other, and at each place the height of its image. -/
structure Output.Mirrors {α : Type} [Scalar α] (o o' : Output α) : Prop where
  carriers : o'.carriers = o.carriers
  kicks : o'.kicks = o.kicks
  passes : List.Forall₂ Pass.Mirrors o.passes o'.passes
  records : List.Forall₂ Record.Level o.yarn.records o'.yarn.records
  heights : o.heights.Mirrors o'.heights

namespace Machine

variable {α : Type} [Scalar α] {m m' : Machine α}

/-- A session of images keeps the image of what the session keeps, step by step. -/
theorem Mirrors.session [LawfulScalar α] (h : m.Mirrors m') {is : List Instruction}
    (hdirected : ∀ i ∈ is, i.IsDirected) (hnear : ∀ i ∈ is, i.IsNear) :
    (m'.outcomes (is.map Instruction.mirror)).map outcomeKind =
        (m.outcomes is).map outcomeKind ∧
      (m.after is).Mirrors (m'.after (is.map Instruction.mirror)) := by
  induction is generalizing m m' with
  | nil => exact ⟨rfl, h⟩
  | cons i is ih =>
    obtain ⟨hi, hdirected⟩ := List.forall_mem_cons.1 hdirected
    obtain ⟨hi', hnear⟩ := List.forall_mem_cons.1 hnear
    obtain ⟨houtcome, hmachine⟩ := h.execute hi hi'
    obtain ⟨houtcomes, hafter⟩ := ih hmachine hdirected hnear
    refine ⟨?_, hafter⟩
    rw [List.map_cons, outcomes_cons, outcomes_cons, List.map_cons, List.map_cons, houtcome,
      houtcomes]

theorem Mirrors.output (h : m.Mirrors m') (warnings warnings' : List LineWarning) :
    (m.output warnings).Mirrors (m'.output warnings') where
  carriers := by
    show m'.carriers.declared = m.carriers.declared
    rw [h.carriers, Carriers.declared_mirror]
  kicks := h.kicks
  passes := h.schedule.passes
  records := h.fabric.store.records
  heights := h.fabric.heights

/-- Left and right are alike, as long as rackings are whole numbers and nothing is too far out. Of
two sessions from the start, one of instructions that were read and the other of their images, each
step ends in the same kind of way, also after failures, and what is put out at the end is the image
of the other. -/
theorem left_right_symmetric {config : Config Float32}
    (hreach : isIndex config.stoppingDistance = true) {is : List Instruction}
    (hparsed : ∀ i ∈ is, i.IsParsed) (hnear : ∀ i ∈ is, i.IsNear)
    (warnings warnings' : List LineWarning) :
    ((initial config).outcomes (is.map Instruction.mirror)).map outcomeKind =
        ((initial config).outcomes is).map outcomeKind ∧
      (((initial config).after is).output warnings).Mirrors
        (((initial config).after (is.map Instruction.mirror)).output warnings') := by
  have hdirected : ∀ i ∈ is, i.IsDirected := fun i hi => (hparsed i hi).isDirected
  obtain ⟨houtcomes, hmachines⟩ := (mirrors_initial hreach).session hdirected hnear
  exact ⟨houtcomes, hmachines.output warnings warnings'⟩

/-- Two stitches and a transfer with racked beds, and another one to a needle that is not opposite,
which fails. -/
theorem transfer_from_either_side :
    let is : List Instruction :=
      [.bringIn .plain ["A"], .stitch .knit .right (.front 0) ["A"],
        .stitch .knit .right (.front 1) ["A"], .rack 1,
        .split .undirected (.front 1) (.back 0) [], .split .undirected (.front 0) (.back 0) []]
    let start := initial (Config.standard : Config Float32)
    (start.outcomes (is.map Instruction.mirror)).map outcomeKind =
        (start.outcomes is).map outcomeKind ∧
      ((start.after is).output []).Mirrors
        ((start.after (is.map Instruction.mirror)).output []) := by
  intro is start
  refine left_right_symmetric (by decide) ?_ ?_ [] []
  · simp only [is, List.forall_mem_cons]
    exact ⟨⟨"in A".toList, by decide +kernel⟩, ⟨"knit + f0 A".toList, by decide +kernel⟩,
      ⟨"knit + f1 A".toList, by decide +kernel⟩, ⟨"rack 1".toList, by decide +kernel⟩,
      ⟨"xfer f1 b0".toList, by decide +kernel⟩, ⟨"xfer f0 b0".toList, by decide +kernel⟩, nofun⟩
  · have hracking : ∃ r : Int, r.natAbs ≤ 2 ^ 29 ∧ ((1 : Float) == Float.ofInt r) = true :=
      ⟨1, by decide, by decide +kernel⟩
    simp only [is, List.forall_mem_cons]
    exact ⟨trivial, (by decide : (0 : Int).natAbs ≤ 2 ^ 29),
      (by decide : (1 : Int).natAbs ≤ 2 ^ 29), hracking, ⟨by decide, by decide⟩,
      ⟨by decide, by decide⟩, nofun⟩

end Machine

end Knitting
