import Mathlib.Data.List.Basic
import PipeTrace.Metrics

/-!
# The walk of a comparison in closed form

`Trace.compare` visits the ids of two traces and pushes findings onto a comparison that it carries
along.  Here the walk is cut into the findings about single instructions:

* `Trace.findingsAt`        the findings about one instruction, and `Trace.visitWith_eq`;
* `Comparison.pushAll`      pushing a list of findings, with one lemma for each field;
* `Trace.compare_eq`        a comparison is its findings pushed onto the empty one.
-/

set_option autoImplicit false

namespace PipeTrace

/-- if all but one of distinct elements yield nothing, their lists are that of the one -/
theorem flatMap_eq_of_nodup {α β : Type} {f : α → List β} {as : List α} {a : α}
    (hnodup : as.Nodup) (ha : a ∈ as) (h : ∀ b ∈ as, b ≠ a → f b = []) : as.flatMap f = f a := by
  induction as with
  | nil => cases ha
  | cons b as ih =>
    obtain ⟨hb, hnodup⟩ := List.nodup_cons.mp hnodup
    rw [List.flatMap_cons]
    by_cases hba : b = a
    · subst hba
      have hrest : as.flatMap f = [] := by
        refine List.flatMap_eq_nil_iff.mpr fun c hc => h c (List.mem_cons_of_mem b hc) ?_
        rintro rfl
        exact hb hc
      rw [hrest, List.append_nil]
    · have ha' : a ∈ as := List.mem_of_ne_of_mem (Ne.symm hba) ha
      rw [h b List.mem_cons_self hba, List.nil_append]
      exact ih hnodup ha' fun c hc => h c (List.mem_cons_of_mem b hc)

theorem StageSet.nodup_toList (s : StageSet) : s.toList.Nodup :=
  Std.ExtTreeSet.distinct_toList.imp fun h heq => h (by rw [heq]; exact Std.ReflCmp.compare_self)

/-! ## pushing findings -/

namespace Comparison

def pushAll (c : Comparison) (fs : List Finding) : Comparison := fs.foldl push c

theorem pushAll_nil (c : Comparison) : c.pushAll [] = c := rfl

theorem pushAll_cons (c : Comparison) (f : Finding) (fs : List Finding) :
    c.pushAll (f :: fs) = (c.push f).pushAll fs := rfl

theorem checked_pushAll (c : Comparison) (fs : List Finding) :
    (c.pushAll fs).checked = c.checked := by
  induction fs generalizing c with
  | nil => rfl
  | cons f fs ih =>
    rw [pushAll_cons, ih]
    rfl

theorem findings_pushAll (c : Comparison) (fs : List Finding) :
    (c.pushAll fs).findings = c.findings ++ fs := by
  induction fs generalizing c with
  | nil => rw [pushAll_nil, List.append_nil]
  | cons f fs ih =>
    rw [pushAll_cons, ih]
    show c.findings ++ [f] ++ fs = _
    rw [List.append_assoc, List.singleton_append]

theorem divergent_pushAll (c : Comparison) (fs : List Finding) :
    (c.pushAll fs).divergent = c.divergent + fs.countP Finding.isDivergence := by
  induction fs generalizing c with
  | nil => rfl
  | cons f fs ih =>
    rw [pushAll_cons, ih, List.countP_cons]
    show (if f.isDivergence then c.divergent + 1 else c.divergent) + _ = _
    cases f.isDivergence
    · rfl
    · show c.divergent + 1 + _ = c.divergent + (_ + 1)
      omega

theorem firstDivergence_pushAll (c : Comparison) (fs : List Finding) :
    (c.pushAll fs).firstDivergence =
      c.firstDivergence.or ((fs.find? Finding.isDivergence).map Finding.id) := by
  induction fs generalizing c with
  | nil =>
    rw [pushAll_nil, List.find?_nil, Option.map_none, Option.or_none]
  | cons f fs ih =>
    rw [pushAll_cons, ih, List.find?_cons]
    show (if f.isDivergence then c.firstDivergence.or (some f.id) else c.firstDivergence).or _ = _
    cases f.isDivergence
    · rfl
    · show (c.firstDivergence.or (some f.id)).or _ = c.firstDivergence.or (some f.id)
      rw [Option.or_assoc, Option.some_or]

end Comparison

/-! ## the findings about one instruction -/

namespace Record

/-- the finding about two labels of an instruction, if there is one -/
def labelFindings (a b : Record) (id : InstrId) : List Finding :=
  if a.label ≠ "" ∧ b.label ≠ "" ∧ a.label ≠ b.label then [.labelMismatch id a.label b.label]
  else []

/-- the finding about the stages of an instruction, if there is one -/
def timingFindings (a b : Record) (stages : StageSet) (id : InstrId) : List Finding :=
  if a.deltas b stages = [] then [] else [.stageTiming id a.label (a.deltas b stages)]

theorem labelFindings_of_label_eq {a b : Record} (h : a.label = b.label) (id : InstrId) :
    a.labelFindings b id = [] := if_neg fun hne => hne.2.2 h

theorem timingFindings_of_deltas_eq_nil {a b : Record} {stages : StageSet}
    (h : a.deltas b stages = []) (id : InstrId) : a.timingFindings b stages id = [] := if_pos h

theorem mem_deltas {a b : Record} {stages : StageSet} {d : StageDelta} :
    d ∈ a.deltas b stages ↔ stages.contains d.stage = true ∧ d.left = a.stage? d.stage ∧
      d.right = b.stage? d.stage ∧ d.left ≠ d.right := by
  unfold deltas
  rw [List.mem_filterMap, StageSet.contains_iff_mem_toList]
  constructor
  · rintro ⟨stage, hmem, h⟩
    split at h
    · cases h
    · rename_i hne
      cases h
      exact ⟨hmem, rfl, rfl, hne⟩
  · rintro ⟨hmem, hl, hr, hne⟩
    refine ⟨d.stage, hmem, ?_⟩
    rw [← hl, ← hr, if_neg hne]

theorem stages_deltas_sublist (a b : Record) (stages : StageSet) :
    ((a.deltas b stages).map StageDelta.stage).Sublist stages.toList := by
  unfold deltas
  induction stages.toList with
  | nil => exact List.Sublist.slnil
  | cons stage rest ih =>
    rw [List.filterMap_cons]
    split
    · exact ih.cons stage
    · rename_i d h
      split at h
      · cases h
      · cases h
        exact ih.cons_cons stage

/-- the deltas of two records that agree in all stages but one -/
theorem deltas_eq_singleton {a b : Record} {stages : StageSet} {stage : String}
    (hmem : stages.contains stage = true) (hne : a.stage? stage ≠ b.stage? stage)
    (h : ∀ stage', stage' ≠ stage → a.stage? stage' = b.stage? stage') :
    a.deltas b stages =
      [{ stage, left := a.stage? stage, right := b.stage? stage }] := by
  unfold deltas
  rw [List.filterMap_eq_flatMap_toList,
    flatMap_eq_of_nodup stages.nodup_toList (StageSet.contains_iff_mem_toList.mp hmem)]
  · rw [if_neg hne, Option.toList_some]
  · intro stage' _ hstage
    rw [if_pos (h stage' hstage), Option.toList_none]

/-- records that agree in the stages of the set have no deltas -/
theorem deltas_eq_nil {a b : Record} {stages : StageSet}
    (h : ∀ stage, stages.contains stage = true → a.stage? stage = b.stage? stage) :
    a.deltas b stages = [] := by
  rw [List.eq_nil_iff_forall_not_mem]
  intro d hd
  obtain ⟨hmem, hl, hr, hne⟩ := mem_deltas.mp hd
  exact hne (hl.trans ((h d.stage hmem).trans hr.symm))

end Record

namespace Trace

/-- the findings about one instruction -/
def findingsAt (l r : Trace) (stages : StageSet) (id : InstrId) : List Finding :=
  match l.find? id, r.find? id with
  | some a, some b => a.labelFindings b id ++ a.timingFindings b stages id
  | none, _ => [.missing id .left]
  | _, none => [.missing id .right]

def findings (l r : Trace) (stages : StageSet) : List Finding :=
  (l.unionIds r).flatMap (l.findingsAt r stages)

theorem nodup_unionIds (l r : Trace) : (l.unionIds r).Nodup :=
  Std.ExtTreeSet.distinct_toList.imp fun h heq => h (by rw [heq]; exact Std.ReflCmp.compare_self)

variable {l r : Trace} {stages : StageSet} {id : InstrId}

theorem findingsAt_of_left_eq_none (h : l.find? id = none) :
    l.findingsAt r stages id = [.missing id .left] := by
  unfold findingsAt
  rw [h]

theorem findingsAt_of_right_eq_none {a : Record} (hl : l.find? id = some a)
    (hr : r.find? id = none) : l.findingsAt r stages id = [.missing id .right] := by
  unfold findingsAt
  rw [hl, hr]

theorem findingsAt_of_eq_some {a b : Record} (hl : l.find? id = some a) (hr : r.find? id = some b) :
    l.findingsAt r stages id = a.labelFindings b id ++ a.timingFindings b stages id := by
  unfold findingsAt
  rw [hl, hr]

theorem id_of_mem_findingsAt {f : Finding} (h : f ∈ l.findingsAt r stages id) : f.id = id := by
  unfold findingsAt at h
  split at h
  · rcases List.mem_append.mp h with h | h
    · unfold Record.labelFindings at h
      split at h
      · cases List.mem_singleton.mp h; rfl
      · cases h
    · unfold Record.timingFindings at h
      split at h
      · cases h
      · cases List.mem_singleton.mp h; rfl
  · cases List.mem_singleton.mp h; rfl
  · cases List.mem_singleton.mp h; rfl

section
variable {σ : Type} (note : σ → Finding → σ) (s : σ)

theorem visitWith_eq :
    visitWith note l r stages s id = (l.findingsAt r stages id).foldl note s := by
  cases hl : l.find? id with
  | none =>
    rw [findingsAt_of_left_eq_none hl]
    unfold visitWith
    rw [hl]
    rfl
  | some a =>
    cases hr : r.find? id with
    | none =>
      rw [findingsAt_of_right_eq_none hl hr]
      unfold visitWith
      rw [hl, hr]
      rfl
    | some b =>
      rw [findingsAt_of_eq_some hl hr, List.foldl_append]
      unfold visitWith Record.labelFindings Record.timingFindings
      rw [hl, hr]
      show (if a.deltas b stages = [] then _ else _) = _
      split <;> split <;> rfl

/-- whatever is done about findings, a walk does it in the order of the ids -/
theorem foldl_visitWith (ids : List InstrId) :
    ids.foldl (visitWith note l r stages) s =
      (ids.flatMap (l.findingsAt r stages)).foldl note s := by
  induction ids generalizing s with
  | nil => rfl
  | cons id ids ih =>
    rw [List.foldl_cons, ih, visitWith_eq, List.flatMap_cons, List.foldl_append]

end

/-- **A comparison is its findings, pushed in the order of the ids.** -/
theorem compare_eq (l r : Trace) (stages : StageSet) :
    l.compare r stages =
      Comparison.pushAll { checked := (l.unionIds r).length } (l.findings r stages) :=
  foldl_visitWith _ _ _

/-! ## instructions about which nothing is found -/

theorem findingsAt_of_find?_eq (h : l.find? id = r.find? id) (hid : id ∈ l.unionIds r) :
    l.findingsAt r stages id = [] := by
  cases hl : l.find? id with
  | none =>
    rw [mem_unionIds, ← h, hl] at hid
    simp at hid
  | some a =>
    rw [findingsAt_of_eq_some hl (h ▸ hl), Record.labelFindings_of_label_eq rfl,
      Record.timingFindings_of_deltas_eq_nil (Record.deltas_eq_nil fun _ _ => rfl),
      List.append_nil]

theorem findings_eq_nil (h : ∀ id ∈ l.unionIds r, l.findingsAt r stages id = []) :
    l.findings r stages = [] := List.flatMap_eq_nil_iff.mpr h

/-- if there is nothing about the other instructions, the findings are those about one -/
theorem findings_eq_findingsAt (hid : id ∈ l.unionIds r)
    (h : ∀ id' ∈ l.unionIds r, id' ≠ id → l.findingsAt r stages id' = []) :
    l.findings r stages = l.findingsAt r stages id :=
  flatMap_eq_of_nodup (l.nodup_unionIds r) hid h

/-! ## the fields of a comparison -/

theorem checked_compare (l r : Trace) (stages : StageSet) :
    (l.compare r stages).checked = (l.unionIds r).length := by
  rw [compare_eq, Comparison.checked_pushAll]

theorem findings_compare (l r : Trace) (stages : StageSet) :
    (l.compare r stages).findings = l.findings r stages := by
  rw [compare_eq, Comparison.findings_pushAll, List.nil_append]

theorem divergent_compare (l r : Trace) (stages : StageSet) :
    (l.compare r stages).divergent = (l.findings r stages).countP Finding.isDivergence := by
  rw [compare_eq, Comparison.divergent_pushAll, Nat.zero_add]

theorem firstDivergence_compare (l r : Trace) (stages : StageSet) :
    (l.compare r stages).firstDivergence =
      ((l.findings r stages).find? Finding.isDivergence).map Finding.id := by
  rw [compare_eq, Comparison.firstDivergence_pushAll, Option.none_or]

theorem exitCode_compare_of_findings_eq_nil (h : l.findings r stages = []) :
    (l.compare r stages).exitCode = 0 := by
  unfold Comparison.exitCode Comparison.isIdentical
  rw [firstDivergence_compare, h]
  rfl

/-- the verdict if there is only one finding and that is a divergence -/
theorem verdict_of_findings_eq_singleton {f : Finding} (h : l.findings r stages = [f])
    (hf : f.isDivergence = true) :
    (l.compare r stages).exitCode = 1 ∧ (l.compare r stages).divergent = 1 ∧
      (l.compare r stages).firstDivergence = some f.id := by
  have hfirst : (l.compare r stages).firstDivergence = some f.id := by
    rw [firstDivergence_compare, h, List.find?_cons, hf]
    rfl
  refine ⟨?_, ?_, hfirst⟩
  · unfold Comparison.exitCode Comparison.isIdentical
    rw [hfirst]
    rfl
  · rw [divergent_compare, h, List.countP_singleton, if_pos hf]

end Trace

/-! ## a comparison that records as it goes -/

theorem Comparison.Recorded.foldl_push (s : Recorded) (fs : List Finding) :
    fs.foldl push s = { comparison := s.comparison.pushAll fs
                        updates := s.updates ++ fs.map Finding.update } := by
  induction fs generalizing s with
  | nil =>
    rw [List.map_nil, List.append_nil]
    rfl
  | cons f fs ih =>
    rw [List.foldl_cons, ih, List.map_cons]
    show Recorded.mk _ (s.updates ++ [f.update] ++ fs.map Finding.update) = _
    rw [List.append_assoc, List.singleton_append]
    rfl

/-- **A comparison records its findings one by one, and then how many instructions it checked.** -/
theorem Trace.compareRecorded_eq (l r : Trace) (stages : StageSet) :
    l.compareRecorded r stages =
      { comparison := l.compare r stages, updates := (l.compare r stages).updates } := by
  have hwalked : (l.unionIds r).foldl (visitWith Comparison.Recorded.push l r stages)
      { comparison := { checked := (l.unionIds r).length } } =
        { comparison := l.compare r stages
          updates := (l.compare r stages).findings.map Finding.update } := by
    rw [foldl_visitWith, Comparison.Recorded.foldl_push, findings_compare, compare_eq]
    rfl
  unfold compareRecorded
  simp only [hwalked]
  rfl

end PipeTrace
