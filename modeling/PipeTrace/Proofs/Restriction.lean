import PipeTrace.Proofs.Replay
import PipeTrace.Proofs.Timing

/-!
# Comparing fewer stages

What a comparison of fewer stages finds can be read off a comparison of more of them, without the
traces: `Finding.restrict?` keeps the deltas of a finding whose stages are still compared, and drops
the finding if none is left.

* `Record.deltas_restrict`    the deltas of two records, restricted;
* `Trace.findings_restrict`   the findings about two traces, restricted;
* `Comparison.Restricts`      what the two comparisons have to do with each other.

To compare more stages can only find more differences, and sooner; and a difference under two sets
together is one under either of them (`Trace.compare_restrict`).
-/

set_option autoImplicit false

namespace PipeTrace

/-! ## subsets and unions -/

namespace StageSet

instance : HasSubset StageSet where
  Subset s t := ∀ stage, s.contains stage = true → t.contains stage = true

/-- the stages of both sets -/
instance : Union StageSet where
  union s t := ofList (s.toList ++ t.toList)

variable {s t : StageSet}

theorem subset_iff_toList : s ⊆ t ↔ ∀ stage ∈ s.toList, stage ∈ t.toList := by
  simp only [← contains_iff_mem_toList]
  exact Iff.rfl

theorem contains_union {stage : String} :
    (s ∪ t).contains stage = true ↔ s.contains stage = true ∨ t.contains stage = true := by
  simp only [contains_iff_mem_toList]
  show stage ∈ (ofList (s.toList ++ t.toList)).toList ↔ _
  rw [mem_toList_ofList, List.mem_append]

end StageSet

/-! ## deltas and findings that are left -/

def StageSet.restrict (s : StageSet) (deltas : List StageDelta) : List StageDelta :=
  deltas.filter fun d => s.contains d.stage

theorem StageSet.restrict_ne_nil_iff {s : StageSet} {deltas : List StageDelta} :
    s.restrict deltas ≠ [] ↔ ∃ d ∈ deltas, s.contains d.stage = true := by
  unfold restrict
  rw [ne_eq, List.filter_eq_nil_iff]
  simp only [not_forall, not_not, exists_prop]

theorem Record.deltas_restrict (a b : Record) {s t : StageSet} (h : s ⊆ t) :
    a.deltas b s = s.restrict (a.deltas b t) := by
  have hall := a.deltaList_deltas b t
  refine (DeltaList.eq_deltas ⟨hall.ordered.filter _, fun d => ?_⟩).symm
  show d ∈ List.filter _ _ ↔ _
  rw [List.mem_filter, hall.mem_iff]
  constructor
  · rintro ⟨⟨-, hvalues⟩, hmem⟩
    exact ⟨hmem, hvalues⟩
  · rintro ⟨hmem, hvalues⟩
    exact ⟨⟨h d.stage hmem, hvalues⟩, hmem⟩

namespace Finding

/-- what is left of a finding if only the stages of the set are compared -/
def restrict? (s : StageSet) : Finding → Option Finding
  | .missing id side => some (.missing id side)
  | .labelMismatch id left right => some (.labelMismatch id left right)
  | .stageTiming id label deltas =>
    if s.restrict deltas = [] then none else some (.stageTiming id label (s.restrict deltas))

theorem restrict?_stageTiming_eq_some_iff {s : StageSet} {id : InstrId} {label : String}
    {deltas : List StageDelta} {g : Finding} :
    restrict? s (.stageTiming id label deltas) = some g ↔
      s.restrict deltas ≠ [] ∧ g = .stageTiming id label (s.restrict deltas) := by
  show (if s.restrict deltas = [] then none else some _) = some g ↔ _
  split
  · rename_i hnil
    exact iff_of_false nofun fun h => h.1 hnil
  · rename_i hne
    rw [Option.some_inj, eq_comm, and_iff_right hne]

theorem kind_of_restrict? {s : StageSet} {f g : Finding} (h : f.restrict? s = some g) :
    g.kind = f.kind := by
  cases f with
  | missing id side => cases h; rfl
  | labelMismatch id left right => cases h; rfl
  | stageTiming id label deltas => rw [(restrict?_stageTiming_eq_some_iff.mp h).2]; rfl

theorem restrict?_of_kind_ne {s : StageSet} {f : Finding} (h : f.kind ≠ .stageTiming) :
    f.restrict? s = some f := by
  cases f with
  | missing id side => rfl
  | labelMismatch id left right => rfl
  | stageTiming id label deltas => exact absurd rfl h

/-- findings that are not about stages are left as they are -/
theorem filter_kind_restrict? (s : StageSet) {kind : Kind} (hkind : kind ≠ .stageTiming)
    (fs : List Finding) :
    (fs.filterMap (restrict? s)).filter (·.kind = kind) = fs.filter (·.kind = kind) := by
  induction fs with
  | nil => rfl
  | cons f fs ih =>
    cases hf : f.restrict? s with
    | none =>
      have hne : f.kind ≠ kind := by
        rintro rfl
        rw [restrict?_of_kind_ne hkind] at hf
        cases hf
      rw [List.filterMap_cons_none hf, ih, List.filter_cons_of_neg (by simpa using hne)]
    | some g =>
      rw [List.filterMap_cons_some hf, List.filter_cons, List.filter_cons, ih, kind_of_restrict? hf]
      split
      · rename_i heq
        have hne : f.kind ≠ .stageTiming := of_decide_eq_true heq ▸ hkind
        rw [restrict?_of_kind_ne hne] at hf
        cases hf
        rfl
      · rfl

theorem stageTiming_mem_restrict?_iff {s : StageSet} {fs : List Finding} {id : InstrId}
    {label : String} {deltas : List StageDelta} :
    .stageTiming id label deltas ∈ fs.filterMap (restrict? s) ↔
      ∃ all, .stageTiming id label all ∈ fs ∧ deltas = s.restrict all ∧
        ∃ d ∈ all, s.contains d.stage = true := by
  rw [List.mem_filterMap]
  constructor
  · rintro ⟨f, hf, hrestrict⟩
    cases f with
    | missing id side => cases hrestrict
    | labelMismatch id left right => cases hrestrict
    | stageTiming id' label' all =>
      obtain ⟨hne, heq⟩ := restrict?_stageTiming_eq_some_iff.mp hrestrict
      cases heq
      exact ⟨all, hf, rfl, StageSet.restrict_ne_nil_iff.mp hne⟩
  · rintro ⟨all, hf, rfl, hsome⟩
    exact ⟨_, hf, restrict?_stageTiming_eq_some_iff.mpr
      ⟨StageSet.restrict_ne_nil_iff.mpr hsome, rfl⟩⟩

end Finding

/-! ## comparisons -/

namespace Record

variable {s t : StageSet}

theorem restrict?_labelFindings (a b : Record) (s : StageSet) (id : InstrId) :
    (a.labelFindings b id).filterMap (Finding.restrict? s) = a.labelFindings b id := by
  unfold labelFindings
  split <;> rfl

theorem restrict?_timingFindings (a b : Record) (h : s ⊆ t) (id : InstrId) :
    (a.timingFindings b t id).filterMap (Finding.restrict? s) = a.timingFindings b s id := by
  have hdeltas := a.deltas_restrict b h
  unfold timingFindings
  by_cases hall : a.deltas b t = []
  · have hnone : a.deltas b s = [] := by rw [hdeltas, hall]; rfl
    rw [if_pos hall, if_pos hnone]
    rfl
  · rw [if_neg hall, hdeltas]
    by_cases hleft : s.restrict (a.deltas b t) = []
    · rw [if_pos hleft]
      exact List.filterMap_cons_none (if_pos hleft)
    · rw [if_neg hleft]
      exact List.filterMap_cons_some (if_neg hleft)

end Record

/-- what a comparison of the stages of a set reports, if `c` is one of more stages -/
structure Comparison.Restricts (c' c : Comparison) (s : StageSet) : Prop where
  checked : c'.checked = c.checked
  findings : c'.findings = c.findings.filterMap (Finding.restrict? s)
  missing : c'.findings.filter (·.kind = .presence) = c.findings.filter (·.kind = .presence)
  labels : c'.findings.filter (·.kind = .label) = c.findings.filter (·.kind = .label)
  timing : ∀ id label deltas, .stageTiming id label deltas ∈ c'.findings ↔
    ∃ all, .stageTiming id label all ∈ c.findings ∧ deltas = s.restrict all ∧
      ∃ d ∈ all, s.contains d.stage = true
  divergent_le : c'.divergent ≤ c.divergent
  leastDivergence_le : c.leastDivergence ≤ c'.leastDivergence
  exitCode_le : c'.exitCode ≤ c.exitCode

namespace Trace

variable {l r : Trace} {s t : StageSet} {id : InstrId}

theorem findingsAt_restrict (h : s ⊆ t) :
    l.findingsAt r s id = (l.findingsAt r t id).filterMap (Finding.restrict? s) := by
  cases hl : l.find? id with
  | none =>
    rw [findingsAt_of_left_eq_none hl, findingsAt_of_left_eq_none hl]
    rfl
  | some a =>
    cases hr : r.find? id with
    | none =>
      rw [findingsAt_of_right_eq_none hl hr, findingsAt_of_right_eq_none hl hr]
      rfl
    | some b =>
      rw [findingsAt_of_eq_some hl hr, findingsAt_of_eq_some hl hr, List.filterMap_append,
        Record.restrict?_labelFindings, Record.restrict?_timingFindings a b h]

/-- the findings under fewer stages are those under more of them, restricted -/
theorem findings_restrict (l r : Trace) (h : s ⊆ t) :
    l.findings r s = (l.findings r t).filterMap (Finding.restrict? s) := by
  unfold findings
  rw [List.filterMap_flatMap]
  exact List.flatMap_congr fun id _ => findingsAt_restrict h

/-! ## instructions that differ -/

theorem differs_union_iff :
    l.Differs r (s ∪ t) id ↔ l.Differs r s id ∨ l.Differs r t id := by
  unfold Differs
  constructor
  · rintro (hone | ⟨a, b, stage, hl, hr, hmem, hne⟩)
    · exact Or.inl (Or.inl hone)
    · rcases StageSet.contains_union.mp hmem with hs | ht
      · exact Or.inl (Or.inr ⟨a, b, stage, hl, hr, hs, hne⟩)
      · exact Or.inr (Or.inr ⟨a, b, stage, hl, hr, ht, hne⟩)
  · rintro ((hone | ⟨a, b, stage, hl, hr, hs, hne⟩) | (hone | ⟨a, b, stage, hl, hr, ht, hne⟩))
    · exact Or.inl hone
    · exact Or.inr ⟨a, b, stage, hl, hr, StageSet.contains_union.mpr (Or.inl hs), hne⟩
    · exact Or.inl hone
    · exact Or.inr ⟨a, b, stage, hl, hr, StageSet.contains_union.mpr (Or.inr ht), hne⟩

theorem Differs.mono (h : s ⊆ t) (hid : l.Differs r s id) : l.Differs r t id := by
  rcases hid with hone | ⟨a, b, stage, hl, hr, hmem, hne⟩
  · exact Or.inl hone
  · exact Or.inr ⟨a, b, stage, hl, hr, h stage hmem, hne⟩

theorem divergent_mono (l r : Trace) (h : s ⊆ t) :
    (l.compare r s).divergent ≤ (l.compare r t).divergent := by
  rw [divergent_compare_eq_length, divergent_compare_eq_length]
  refine ((nodup_divergentIds l r s).subperm fun id hid => ?_).length_le
  exact mem_divergentIds.mpr ((mem_divergentIds.mp hid).mono h)

theorem leastDivergence_anti (l r : Trace) (h : s ⊆ t) :
    (l.compare r t).leastDivergence ≤ (l.compare r s).leastDivergence :=
  le_leastDivergence_iff.mpr fun _ hid => leastDivergence_le (hid.mono h)

theorem exitCode_mono (l r : Trace) (h : s ⊆ t) :
    (l.compare r s).exitCode ≤ (l.compare r t).exitCode := by
  have hs := reports_compare l r s
  have ht := reports_compare l r t
  by_cases hsame : {id | l.Differs r s id} = ∅
  · rw [hs.exitCode_eq_zero_iff.mpr hsame]
    exact Nat.zero_le _
  · have hmore : {id | l.Differs r t id} ≠ ∅ := by
      intro hnone
      refine hsame (Set.eq_empty_iff_forall_notMem.mpr fun id hid => ?_)
      exact Set.eq_empty_iff_forall_notMem.mp hnone id (hid.mono h)
    rw [hs.exitCode_eq_one_iff.mpr hsame, ht.exitCode_eq_one_iff.mpr hmore]

theorem restricts_compare (l r : Trace) (h : s ⊆ t) :
    (l.compare r s).Restricts (l.compare r t) s := by
  have hfindings : (l.compare r s).findings =
      (l.compare r t).findings.filterMap (Finding.restrict? s) := by
    rw [findings_compare, findings_compare, findings_restrict l r h]
  refine ⟨?_, hfindings, ?_, ?_, ?_, divergent_mono l r h, leastDivergence_anti l r h,
    exitCode_mono l r h⟩
  · rw [checked_compare, checked_compare]
  · rw [hfindings, Finding.filter_kind_restrict? s (by decide)]
  · rw [hfindings, Finding.filter_kind_restrict? s (by decide)]
  · intro id label deltas
    rw [hfindings, Finding.stageTiming_mem_restrict?_iff]

/-- the instructions that divergences are found about are those that differ -/
theorem exists_divergence_iff :
    (∃ f ∈ (l.compare r s).findings, f.isDivergence = true ∧ f.id = id) ↔
      l.Differs r s id := by
  rw [← mem_divergentIds, findings_compare]
  unfold divergentIds
  simp only [List.mem_map, List.mem_filter, and_assoc]

/-- **Fewer stages show a part of the differences.**  What is found about the stages of a set is
what is found about more stages, restricted to the set; and the instructions that differ under two
sets together are those that differ under one of them. -/
theorem compare_restrict (l r : Trace) :
    (∀ s t : StageSet, s ⊆ t → (l.compare r s).Restricts (l.compare r t) s) ∧
    ∀ (s t : StageSet) (id : InstrId),
      (∃ f ∈ (l.compare r (s ∪ t)).findings, f.isDivergence = true ∧ f.id = id) ↔
        (∃ f ∈ (l.compare r s).findings, f.isDivergence = true ∧ f.id = id) ∨
        ∃ f ∈ (l.compare r t).findings, f.isDivergence = true ∧ f.id = id := by
  refine ⟨fun s t h => restricts_compare l r h, fun s t id => ?_⟩
  rw [exists_divergence_iff, exists_divergence_iff, exists_divergence_iff]
  exact differs_union_iff

/-- of two instructions that differ under the standard set the first one is no longer found, and the
second one keeps one of its two deltas -/
theorem compare_restrict_to_one_stage :
    let l := (Loader.replay "a" ["S\t3\t1\tWB", "S\t7\t1\tEX", "S\t7\t2\tWB"]).trace
    let r := (Loader.replay "b" ["S\t3\t4\tWB", "S\t7\t5\tEX"]).trace
    let s := StageSet.ofList ["EX"]
    s ⊆ .standard ∧ (l.compare r s).Restricts (l.compare r .standard) s ∧
    (l.compare r .standard).findings =
      [.stageTiming 3 "" [{ stage := "WB", left := some 1, right := some 4 }],
        .stageTiming 7 "" [{ stage := "EX", left := some 1, right := some 5 },
          { stage := "WB", left := some 2, right := none }]] ∧
    (l.compare r s).findings =
      [.stageTiming 7 "" [{ stage := "EX", left := some 1, right := some 5 }]] := by
  intro l r s
  have hsub : s ⊆ .standard := StageSet.subset_iff_toList.mpr (by decide +kernel)
  exact ⟨hsub, (compare_restrict l r).1 s .standard hsub, by decide +kernel, by decide +kernel⟩

end Trace

end PipeTrace
