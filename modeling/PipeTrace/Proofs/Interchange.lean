import PipeTrace.Proofs.Replay
import PipeTrace.Proofs.Timing

/-!
# Traces that may stand in for each other

`Finding.unlabelled?` leaves the labels out of a finding, and with it all findings about labels.
What is left of the findings about two traces depends on their timing only, and it holds the whole
verdict:

* `Trace.unlabelled?_findings_congr`   traces of the same timing leave the same;
* `Trace.divergentIds_eq_map`          the instructions that differ are those that are left;
* `Comparison.SameButLabels`           what two comparisons have in common that leave the same.

So a trace may be replaced by one that is reported as identical, in a comparison with any other
(`Trace.sameButLabels_of_isIdentical`).
-/

set_option autoImplicit false

namespace PipeTrace

namespace Finding

/-- the finding without the label of its instruction; nothing if it is about labels -/
def unlabelled? : Finding → Option Finding
  | .missing id side => some (.missing id side)
  | .labelMismatch _ _ _ => none
  | .stageTiming id _ deltas => some (.stageTiming id "" deltas)

/-- the instruction and the deltas of a finding about stages -/
def deltas? : Finding → Option (InstrId × List StageDelta)
  | .stageTiming id _ deltas => some (id, deltas)
  | _ => none

theorem filter_presence_unlabelled? (fs : List Finding) :
    (fs.filterMap unlabelled?).filter (·.kind = .presence) =
      fs.filter (·.kind = .presence) := by
  induction fs with
  | nil => rfl
  | cons f fs ih =>
    cases f with
    | missing id side => exact congrArg (.missing id side :: ·) ih
    | labelMismatch _ _ _ => exact ih
    | stageTiming _ _ _ => exact ih

theorem filterMap_deltas?_unlabelled? (fs : List Finding) :
    (fs.filterMap unlabelled?).filterMap deltas? = fs.filterMap deltas? := by
  induction fs with
  | nil => rfl
  | cons f fs ih =>
    cases f with
    | missing _ _ => exact ih
    | labelMismatch _ _ _ => exact ih
    | stageTiming id _ deltas => exact congrArg ((id, deltas) :: ·) ih

/-- a finding is a divergence if and only if something is left of it -/
theorem map_id_filter_isDivergence (fs : List Finding) :
    (fs.filter isDivergence).map id = (fs.filterMap unlabelled?).map id := by
  induction fs with
  | nil => rfl
  | cons f fs ih =>
    cases f with
    | missing i _ => exact congrArg (i :: ·) ih
    | labelMismatch _ _ _ => exact ih
    | stageTiming i _ _ => exact congrArg (i :: ·) ih

end Finding

/-- the comparisons report the same, except for labels and for findings about labels -/
structure Comparison.SameButLabels (c c' : Comparison) : Prop where
  checked : c.checked = c'.checked
  divergent : c.divergent = c'.divergent
  firstDivergence : c.firstDivergence = c'.firstDivergence
  exitCode : c.exitCode = c'.exitCode
  missing : c.findings.filter (·.kind = .presence) = c'.findings.filter (·.kind = .presence)
  deltas : c.findings.filterMap Finding.deltas? = c'.findings.filterMap Finding.deltas?
  unlabelled : c.findings.filterMap Finding.unlabelled? = c'.findings.filterMap Finding.unlabelled?

namespace Record

theorem unlabelled?_labelFindings (a b : Record) (id : InstrId) :
    (a.labelFindings b id).filterMap Finding.unlabelled? = [] := by
  unfold labelFindings
  split <;> rfl

theorem unlabelled?_timingFindings (a b : Record) (stages : StageSet) (id : InstrId) :
    (a.timingFindings b stages id).filterMap Finding.unlabelled? =
      if a.deltas b stages = [] then [] else [.stageTiming id "" (a.deltas b stages)] := by
  unfold timingFindings
  split <;> rfl

end Record

namespace Trace

theorem divergentIds_eq_map (l r : Trace) (stages : StageSet) :
    l.divergentIds r stages =
      ((l.findings r stages).filterMap Finding.unlabelled?).map Finding.id :=
  Finding.map_id_filter_isDivergence _

section
variable {l l' r r' : Trace} {stages : StageSet}

theorem isSome_find?_of_timing?_eq {id : InstrId}
    (h : l.timing? stages id = l'.timing? stages id) :
    (l.find? id).isSome = (l'.find? id).isSome := by
  unfold timing? at h
  rw [← Option.isSome_map, h, Option.isSome_map]

theorem find?_eq_none_of_timing?_eq {id : InstrId}
    (h : l.timing? stages id = l'.timing? stages id) (hl : l.find? id = none) :
    l'.find? id = none := by
  apply Option.not_isSome_iff_eq_none.mp
  rw [← isSome_find?_of_timing?_eq h, hl]
  exact Bool.false_ne_true

theorem find?_eq_some_of_timing?_eq {id : InstrId} {a : Record}
    (h : l.timing? stages id = l'.timing? stages id) (hl : l.find? id = some a) :
    ∃ a', l'.find? id = some a' ∧ a.timing stages = a'.timing stages := by
  unfold timing? at h
  rw [hl, Option.map_some] at h
  obtain ⟨a', ha', htiming⟩ := Option.map_eq_some_iff.mp h.symm
  exact ⟨a', ha', htiming.symm⟩

theorem unlabelled?_findingsAt_congr {id : InstrId}
    (hl : l.timing? stages id = l'.timing? stages id)
    (hr : r.timing? stages id = r'.timing? stages id) :
    (l.findingsAt r stages id).filterMap Finding.unlabelled? =
      (l'.findingsAt r' stages id).filterMap Finding.unlabelled? := by
  cases hleft : l.find? id with
  | none =>
    rw [findingsAt_of_left_eq_none hleft,
      findingsAt_of_left_eq_none (find?_eq_none_of_timing?_eq hl hleft)]
  | some a =>
    obtain ⟨a', hleft', ha⟩ := find?_eq_some_of_timing?_eq hl hleft
    cases hright : r.find? id with
    | none =>
      rw [findingsAt_of_right_eq_none hleft hright,
        findingsAt_of_right_eq_none hleft' (find?_eq_none_of_timing?_eq hr hright)]
    | some b =>
      obtain ⟨b', hright', hb⟩ := find?_eq_some_of_timing?_eq hr hright
      rw [findingsAt_of_eq_some hleft hright, findingsAt_of_eq_some hleft' hright',
        List.filterMap_append, List.filterMap_append, Record.unlabelled?_labelFindings,
        Record.unlabelled?_labelFindings, Record.unlabelled?_timingFindings,
        Record.unlabelled?_timingFindings, Record.deltas_congr ha hb]

variable (hl : ∀ id, l.timing? stages id = l'.timing? stages id)
  (hr : ∀ id, r.timing? stages id = r'.timing? stages id)
include hl hr

theorem unionIds_eq_of_timing?_eq : l.unionIds r = l'.unionIds r' :=
  unionIds_congr (fun id => isSome_find?_of_timing?_eq (hl id)) fun id =>
    isSome_find?_of_timing?_eq (hr id)

theorem unlabelled?_findings_congr :
    (l.findings r stages).filterMap Finding.unlabelled? =
      (l'.findings r' stages).filterMap Finding.unlabelled? := by
  unfold findings
  rw [List.filterMap_flatMap, List.filterMap_flatMap, unionIds_eq_of_timing?_eq hl hr]
  exact List.flatMap_congr fun id _ => unlabelled?_findingsAt_congr (hl id) (hr id)

/-- only the timing bears on what a comparison reports, labels apart -/
theorem sameButLabels_compare :
    (l.compare r stages).SameButLabels (l'.compare r' stages) := by
  have hunlabelled := unlabelled?_findings_congr hl hr
  have hids : l.divergentIds r stages = l'.divergentIds r' stages := by
    rw [divergentIds_eq_map, divergentIds_eq_map, hunlabelled]
  have hfirst : (l.compare r stages).firstDivergence = (l'.compare r' stages).firstDivergence := by
    rw [firstDivergence_compare_eq_head?, firstDivergence_compare_eq_head?, hids]
  refine ⟨?_, ?_, hfirst, ?_, ?_, ?_, ?_⟩
  · rw [checked_compare, checked_compare, unionIds_eq_of_timing?_eq hl hr]
  · rw [divergent_compare_eq_length, divergent_compare_eq_length, hids]
  · unfold Comparison.exitCode Comparison.isIdentical
    rw [hfirst]
  · rw [findings_compare, findings_compare, ← Finding.filter_presence_unlabelled?, hunlabelled,
      Finding.filter_presence_unlabelled?]
  · rw [findings_compare, findings_compare, ← Finding.filterMap_deltas?_unlabelled?, hunlabelled,
      Finding.filterMap_deltas?_unlabelled?]
  · rw [findings_compare, findings_compare, hunlabelled]

end

/-- **Traces that are reported as identical may stand in for each other.**  In a comparison with any
third trace, on either side, the same is reported of both, except for labels. -/
theorem sameButLabels_of_isIdentical {a b : Trace} {stages : StageSet}
    (h : (a.compare b stages).isIdentical = true) (c : Trace) :
    (a.compare c stages).SameButLabels (b.compare c stages) ∧
    (c.compare a stages).SameButLabels (c.compare b stages) := by
  have htiming := isIdentical_compare_iff_timing?.mp h
  exact ⟨sameButLabels_compare htiming fun _ => rfl, sameButLabels_compare (fun _ => rfl) htiming⟩

/-- two traces that differ in a label and in a stage that is not compared; in the comparison with a
third one the label shows -/
theorem sameButLabels_of_isIdentical_mul :
    let a := (Loader.replay "a" ["L\t7\t0\tmul", "S\t7\t1\tEX", "S\t7\t2\tDc"]).trace
    let b := (Loader.replay "b" ["L\t7\t0\tadd", "S\t7\t1\tEX"]).trace
    let c := (Loader.replay "c" ["L\t7\t0\tmul", "S\t7\t4\tEX", "I\t9\t0\t0"]).trace
    (a.compare b .standard).isIdentical = true ∧
    (a.compare c .standard).SameButLabels (b.compare c .standard) ∧
    (c.compare a .standard).SameButLabels (c.compare b .standard) ∧
    (a.compare c .standard).findings =
      [.stageTiming 7 "mul" [{ stage := "EX", left := some 1, right := some 4 }],
        .missing 9 .left] ∧
    (b.compare c .standard).findings =
      [.labelMismatch 7 "add" "mul",
        .stageTiming 7 "add" [{ stage := "EX", left := some 1, right := some 4 }],
        .missing 9 .left] := by
  intro a b c
  have h : (a.compare b .standard).isIdentical = true := by decide +kernel
  obtain ⟨hright, hleft⟩ := sameButLabels_of_isIdentical h c
  exact ⟨h, hright, hleft, by decide +kernel, by decide +kernel⟩

end Trace

end PipeTrace
