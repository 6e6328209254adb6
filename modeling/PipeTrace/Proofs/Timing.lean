import Mathlib.Data.Int.ConditionallyCompleteOrder
import PipeTrace.Proofs.Verdict

/-!
# The timing that a comparison looks at

Of an instruction a comparison looks at two things, labels apart: whether a trace has it, and at
which cycles it entered the stages of the set.  Both are one value for each trace:

* `Record.timing`       the cycles of the stages of a set;
* `Trace.timing?`       the same for an instruction of a trace, nothing if the trace lacks it;
* `Trace.differs_iff`   an instruction differs if and only if its two timings do.

So two traces differ where two functions differ, and the comparisons of three traces obey the laws
of a distance (`Trace.compare_triangle`): the number of instructions that differ is at most the sum
over a trace in between, and the least of them is not below both of those on the way.
-/

set_option autoImplicit false

namespace PipeTrace

/-- the cycles of the stages of a set, in the order of the set -/
def Record.timing (r : Record) (stages : StageSet) : List (Option Cycle) :=
  stages.toList.map r.stage?

theorem Record.timing_eq_iff {a b : Record} {stages : StageSet} :
    a.timing stages = b.timing stages ↔
      ∀ stage, stages.contains stage = true → a.stage? stage = b.stage? stage := by
  unfold timing
  rw [List.map_inj_left]
  simp only [StageSet.contains_iff_mem_toList]

theorem Record.deltas_congr {a a' b b' : Record} {stages : StageSet}
    (ha : a.timing stages = a'.timing stages) (hb : b.timing stages = b'.timing stages) :
    a.deltas b stages = a'.deltas b' stages := by
  unfold deltas
  refine List.filterMap_congr fun stage hmem => ?_
  have hstage := StageSet.contains_iff_mem_toList.mpr hmem
  rw [timing_eq_iff.mp ha stage hstage, timing_eq_iff.mp hb stage hstage]

/-- the least instruction that differs, above all instructions if none does -/
def Comparison.leastDivergence (c : Comparison) : WithTop Int :=
  c.firstDivergence.elim ⊤ fun id => id.toInt

namespace Trace

/-- what a comparison looks at, labels apart; nothing if the trace lacks the instruction -/
def timing? (t : Trace) (stages : StageSet) (id : InstrId) : Option (List (Option Cycle)) :=
  (t.find? id).map fun r => r.timing stages

section
variable {a b c l r : Trace} {stages : StageSet} {id : InstrId}

theorem differs_iff : l.Differs r stages id ↔ l.timing? stages id ≠ r.timing? stages id := by
  unfold Differs contains timing?
  cases hl : l.find? id with
  | none => cases hr : r.find? id <;> simp
  | some a =>
    cases hr : r.find? id with
    | none => simp
    | some b =>
      -- both traces have the instruction, so the stages decide
      have hstages : a.timing stages ≠ b.timing stages ↔
          ∃ stage, stages.contains stage = true ∧ a.stage? stage ≠ b.stage? stage := by
        rw [ne_eq, Record.timing_eq_iff]
        simp only [not_forall, exists_prop, ne_eq]
      simpa using hstages.symm

theorem isIdentical_compare_iff_timing? :
    (l.compare r stages).isIdentical = true ↔
      ∀ id, l.timing? stages id = r.timing? stages id := by
  rw [isIdentical_compare_iff, Set.eq_empty_iff_forall_notMem]
  exact forall_congr' fun id => (not_congr differs_iff).trans not_not

theorem divergentIds_eq_nil_of_isIdentical (h : (l.compare r stages).isIdentical = true) :
    l.divergentIds r stages = [] :=
  divergentIds_eq_nil_iff.mpr (isIdentical_compare_iff.mp h)

theorem divergent_eq_zero_of_isIdentical (h : (l.compare r stages).isIdentical = true) :
    (l.compare r stages).divergent = 0 := by
  rw [divergent_compare_eq_length, divergentIds_eq_nil_of_isIdentical h, List.length_nil]

/-- of traces that are reported as identical at most the labels differ -/
theorem eq_labelMismatch_of_isIdentical {f : Finding}
    (h : (l.compare r stages).isIdentical = true) (hf : f ∈ (l.compare r stages).findings) :
    ∃ id left right, f = .labelMismatch id left right := by
  have hnone := List.map_eq_nil_iff.mp (divergentIds_eq_nil_of_isIdentical h)
  rw [findings_compare] at hf
  have hdiv := List.filter_eq_nil_iff.mp hnone f hf
  cases f with
  | missing _ _ => exact absurd rfl hdiv
  | labelMismatch id left right => exact ⟨id, left, right, rfl⟩
  | stageTiming _ _ _ => exact absurd rfl hdiv

/-! ## a trace in between -/

/-- what differs between two traces differs on one half of the way over a third -/
theorem Differs.through (h : a.Differs c stages id) (b : Trace) :
    a.Differs b stages id ∨ b.Differs c stages id := by
  rw [differs_iff] at h
  rw [differs_iff, differs_iff]
  by_contra hnone
  rw [not_or, not_not, not_not] at hnone
  exact h (hnone.1.trans hnone.2)

theorem le_leastDivergence_iff {x : WithTop Int} :
    x ≤ (l.compare r stages).leastDivergence ↔
      ∀ id, l.Differs r stages id → x ≤ (id.toInt : WithTop Int) := by
  have hreports := reports_compare l r stages
  unfold Comparison.leastDivergence
  cases hfirst : (l.compare r stages).firstDivergence with
  | none =>
    have hempty := hreports.firstDivergence_eq_none_iff.mp hfirst
    exact iff_of_true le_top fun id hid =>
      absurd hid (Set.eq_empty_iff_forall_notMem.mp hempty id)
  | some j =>
    obtain ⟨hj, hleast⟩ := (hreports.firstDivergence_eq_some_iff j).mp hfirst
    constructor
    · intro hx id hid
      exact hx.trans (WithTop.coe_le_coe.mpr (hleast id hid))
    · intro h
      exact h j hj

theorem leastDivergence_le (h : l.Differs r stages id) :
    (l.compare r stages).leastDivergence ≤ (id.toInt : WithTop Int) :=
  le_leastDivergence_iff.mp (le_refl _) id h

theorem divergentIds_subset_append (a b c : Trace) (stages : StageSet) :
    a.divergentIds c stages ⊆ a.divergentIds b stages ++ b.divergentIds c stages := by
  intro id hid
  rw [List.mem_append, mem_divergentIds, mem_divergentIds]
  exact (mem_divergentIds.mp hid).through b

end

/-- **Comparisons obey the laws of a distance.**  Over a trace in between the number of instructions
that differ does not grow, and the least of them does not fall; and to be reported as identical is
an equivalence of traces. -/
theorem compare_triangle (stages : StageSet) :
    (∀ a b c : Trace,
      min (a.compare b stages).leastDivergence (b.compare c stages).leastDivergence ≤
        (a.compare c stages).leastDivergence ∧
      (a.compare c stages).divergent ≤
        (a.compare b stages).divergent + (b.compare c stages).divergent) ∧
    Equivalence fun a b : Trace => (a.compare b stages).isIdentical = true := by
  refine ⟨fun a b c => ⟨?_, ?_⟩, ?_⟩
  · rw [le_leastDivergence_iff]
    intro id hid
    rcases hid.through b with h | h
    · exact (min_le_left _ _).trans (leastDivergence_le h)
    · exact (min_le_right _ _).trans (leastDivergence_le h)
  · have hnodup := nodup_divergentIds a c stages
    calc (a.compare c stages).divergent
        = (a.divergentIds c stages).length := divergent_compare_eq_length a c stages
      _ ≤ (a.divergentIds b stages ++ b.divergentIds c stages).length :=
        (hnodup.subperm (divergentIds_subset_append a b c stages)).length_le
      _ = (a.compare b stages).divergent + (b.compare c stages).divergent := by
        rw [List.length_append, divergent_compare_eq_length, divergent_compare_eq_length]
  · simp only [isIdentical_compare_iff_timing?]
    exact ⟨fun _ _ => rfl, fun h id => (h id).symm, fun h h' id => (h id).trans (h' id)⟩

end Trace

end PipeTrace
