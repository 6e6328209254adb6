import Mathlib.Data.List.Forall2
import PipeTrace.Proofs.Verdict

/-!
# Findings that correspond one by one

Two comparisons are read side by side: their findings have the same length, and the two in each
place stand in a relation, which only findings of one kind about one instruction may do
(`Finding.Faithful`).

* `Comparison.Matches`      such comparisons, which report the same verdict;
* `Trace.matches_compare`   the findings correspond if those about each instruction do.
-/

set_option autoImplicit false

namespace PipeTrace

theorem forall₂_flatMap {α β γ : Type} {R : β → γ → Prop} {f : α → List β} {g : α → List γ}
    {as : List α} (h : ∀ a ∈ as, List.Forall₂ R (f a) (g a)) :
    List.Forall₂ R (as.flatMap f) (as.flatMap g) := by
  have hsame : List.Forall₂ (fun a b => a ∈ as ∧ a = b) as as :=
    List.forall₂_same.mpr fun a ha => ⟨ha, rfl⟩
  refine List.rel_flatMap hsame ?_
  rintro a _ ⟨ha, rfl⟩
  exact h a ha

/-- a function that related members agree on has the same values on both lists -/
theorem map_eq_of_forall₂ {α β : Type} {R : α → α → Prop} {f : α → β} {as bs : List α}
    (hf : ∀ a b, R a b → f b = f a) (h : List.Forall₂ R as bs) : bs.map f = as.map f := by
  induction h with
  | nil => rfl
  | cons hab _ ih => rw [List.map_cons, List.map_cons, hf _ _ hab, ih]

namespace Finding

/-- the relation holds between findings of one kind about one instruction only -/
def Faithful (R : Finding → Finding → Prop) : Prop :=
  ∀ f g, R f g → g.id = f.id ∧ g.kind = f.kind

theorem isDivergence_eq_of_kind_eq {f g : Finding} (h : g.kind = f.kind) :
    g.isDivergence = f.isDivergence := by
  unfold isDivergence
  rw [h]

theorem ids_divergences_eq_of_forall₂ {R : Finding → Finding → Prop} {fs gs : List Finding}
    (hR : Faithful R) (h : List.Forall₂ R fs gs) :
    (gs.filter isDivergence).map id = (fs.filter isDivergence).map id := by
  induction h with
  | nil => rfl
  | @cons f g fs gs hfg _ ih =>
    obtain ⟨hid, hkind⟩ := hR f g hfg
    rw [List.filter_cons, List.filter_cons, isDivergence_eq_of_kind_eq hkind]
    split
    · rw [List.map_cons, List.map_cons, hid, ih]
    · exact ih

end Finding

/-- the comparisons report the same verdict, and in each place of their findings two of one kind
about one instruction, which stand in the relation -/
structure Comparison.Matches (R : Finding → Finding → Prop) (c c' : Comparison) : Prop where
  checked : c'.checked = c.checked
  divergent : c'.divergent = c.divergent
  firstDivergence : c'.firstDivergence = c.firstDivergence
  exitCode : c'.exitCode = c.exitCode
  length : c'.findings.length = c.findings.length
  ids : c'.findings.map Finding.id = c.findings.map Finding.id
  kinds : c'.findings.map Finding.kind = c.findings.map Finding.kind
  findings : List.Forall₂ R c.findings c'.findings

namespace Trace

/-- findings that correspond about each instruction do so altogether, and the verdict is the same -/
theorem matches_compare {R : Finding → Finding → Prop} {l l' r r' : Trace} {stages : StageSet}
    (hR : Finding.Faithful R) (hids : l'.unionIds r' = l.unionIds r)
    (hfindings : ∀ id ∈ l.unionIds r,
      List.Forall₂ R (l.findingsAt r stages id) (l'.findingsAt r' stages id)) :
    (l.compare r stages).Matches R (l'.compare r' stages) := by
  have hall : List.Forall₂ R (l.findings r stages) (l'.findings r' stages) := by
    unfold findings
    rw [hids]
    exact forall₂_flatMap hfindings
  have hdivergent : l'.divergentIds r' stages = l.divergentIds r stages :=
    Finding.ids_divergences_eq_of_forall₂ hR hall
  have hfirst : (l'.compare r' stages).firstDivergence = (l.compare r stages).firstDivergence := by
    rw [firstDivergence_compare_eq_head?, firstDivergence_compare_eq_head?, hdivergent]
  refine ⟨?_, ?_, hfirst, ?_, ?_, ?_, ?_, ?_⟩
  · rw [checked_compare, checked_compare, hids]
  · rw [divergent_compare_eq_length, divergent_compare_eq_length, hdivergent]
  · unfold Comparison.exitCode Comparison.isIdentical
    rw [hfirst]
  · rw [findings_compare, findings_compare, hall.length_eq]
  · rw [findings_compare, findings_compare]
    exact map_eq_of_forall₂ (fun f g h => (hR f g h).1) hall
  · rw [findings_compare, findings_compare]
    exact map_eq_of_forall₂ (fun f g h => (hR f g h).2) hall
  · rw [findings_compare, findings_compare]
    exact hall

end Trace

end PipeTrace
