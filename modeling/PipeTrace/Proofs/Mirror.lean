import PipeTrace.Proofs.Correspondence

/-!
# Two traces compared the other way round

A comparison visits the ids of both traces, asks the left trace first whether it has an instruction,
and takes labels from the left record.  So it is not symmetric as it is written, but what it reports
is: compared the other way round, the findings are mirrored one by one (`Finding.Mirrors`) and the
verdict is the same (`Trace.compare_mirrored`).
-/

set_option autoImplicit false

namespace PipeTrace

def StageDelta.mirror (d : StageDelta) : StageDelta where
  stage := d.stage
  left := d.right
  right := d.left

/-- a finding of a comparison of `l` and `r`, and what it is if they are compared the other way round:
a missing instruction is missing on the other side; labels and cycles are exchanged; and the label
above the stages is that of the other record -/
inductive Finding.Mirrors (l r : Trace) : Finding → Finding → Prop
  | missing (id : InstrId) (side : Side) :
    Mirrors l r (.missing id side) (.missing id side.other)
  | labelMismatch (id : InstrId) (left right : String) :
    Mirrors l r (.labelMismatch id left right) (.labelMismatch id right left)
  | stageTiming {id : InstrId} {a b : Record} (hl : l.find? id = some a) (hr : r.find? id = some b)
    (deltas : List StageDelta) :
    Mirrors l r (.stageTiming id a.label deltas)
      (.stageTiming id b.label (deltas.map StageDelta.mirror))

theorem Finding.faithful_mirrors (l r : Trace) : Faithful (Mirrors l r) := by
  intro f g h
  cases h with
  | missing => exact ⟨rfl, rfl⟩
  | labelMismatch => exact ⟨rfl, rfl⟩
  | stageTiming => exact ⟨rfl, rfl⟩

theorem Record.deltas_mirror (a b : Record) (stages : StageSet) :
    b.deltas a stages = (a.deltas b stages).map StageDelta.mirror := by
  unfold deltas
  rw [List.map_filterMap]
  refine List.filterMap_congr fun stage _ => ?_
  by_cases h : a.stage? stage = b.stage? stage
  · rw [if_pos h, if_pos h.symm, Option.map_none]
  · rw [if_neg h, if_neg (Ne.symm h), Option.map_some]
    rfl

namespace Trace

variable {l r : Trace} {stages : StageSet} {id : InstrId} {a b : Record}

theorem unionIds_comm (l r : Trace) : r.unionIds l = l.unionIds r := by
  apply eq_of_pairwise_lt Int64.toInt (r.pairwise_toInt_unionIds l) (l.pairwise_toInt_unionIds r)
  intro id
  rw [mem_unionIds, mem_unionIds, or_comm]

theorem labelFindings_mirrored (l r : Trace) (a b : Record) (id : InstrId) :
    List.Forall₂ (Finding.Mirrors l r) (a.labelFindings b id) (b.labelFindings a id) := by
  unfold Record.labelFindings
  by_cases h : a.label ≠ "" ∧ b.label ≠ "" ∧ a.label ≠ b.label
  · rw [if_pos h, if_pos ⟨h.2.1, h.1, h.2.2.symm⟩]
    exact .cons (.labelMismatch id a.label b.label) .nil
  · rw [if_neg h, if_neg fun h' => h ⟨h'.2.1, h'.1, h'.2.2.symm⟩]
    exact .nil

theorem timingFindings_mirrored (hl : l.find? id = some a) (hr : r.find? id = some b)
    (stages : StageSet) :
    List.Forall₂ (Finding.Mirrors l r) (a.timingFindings b stages id)
      (b.timingFindings a stages id) := by
  unfold Record.timingFindings
  rw [a.deltas_mirror b stages]
  by_cases h : a.deltas b stages = []
  · rw [if_pos h, if_pos (List.map_eq_nil_iff.mpr h)]
    exact .nil
  · rw [if_neg h, if_neg (mt List.map_eq_nil_iff.mp h)]
    exact .cons (.stageTiming hl hr _) .nil

theorem findingsAt_mirrored (hid : id ∈ l.unionIds r) :
    List.Forall₂ (Finding.Mirrors l r) (l.findingsAt r stages id) (r.findingsAt l stages id) := by
  cases hl : l.find? id with
  | none =>
    -- the left trace lacks the instruction, so the right one has it
    have hsome : (r.find? id).isSome :=
      (mem_unionIds.mp hid).resolve_left (by rw [hl]; exact Bool.false_ne_true)
    obtain ⟨b, hr⟩ := Option.isSome_iff_exists.mp hsome
    rw [findingsAt_of_left_eq_none hl, findingsAt_of_right_eq_none hr hl]
    exact .cons (.missing id .left) .nil
  | some a =>
    cases hr : r.find? id with
    | none =>
      rw [findingsAt_of_right_eq_none hl hr, findingsAt_of_left_eq_none hr]
      exact .cons (.missing id .right) .nil
    | some b =>
      rw [findingsAt_of_eq_some hl hr, findingsAt_of_eq_some hr hl]
      exact List.rel_append (labelFindings_mirrored l r a b id)
        (timingFindings_mirrored hl hr stages)

/-- **To compare two traces the other way round mirrors the findings and keeps the verdict.** -/
theorem compare_mirrored (l r : Trace) (stages : StageSet) :
    (l.compare r stages).Matches (Finding.Mirrors l r) (r.compare l stages) :=
  matches_compare (Finding.faithful_mirrors l r) (unionIds_comm l r) fun _ => findingsAt_mirrored

end Trace

end PipeTrace
