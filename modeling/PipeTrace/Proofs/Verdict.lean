import Mathlib.Data.Set.Card
import PipeTrace.Proofs.Findings

/-!
# The verdict of a comparison

`Trace.Differs` says when an instruction differs, without the walk: only one trace has it, or both
have it and it entered a stage of the set at different cycles.

* `Trace.divergentIds`      the instructions that the divergences among the findings are about;
* `Trace.mem_divergentIds`  these are the instructions that differ;
* `Comparison.Reports`      what the counts, the first divergence and the exit code must be.

The ids of divergences are a part of the ids of both traces, in the same ascending order.  So their
number and the first of them are the size and the least element of the set of instructions that
differ.  Labels are not looked at in any of this (`Trace.SameTiming`).
-/

set_option autoImplicit false

namespace PipeTrace

/-! ## lists that list a set -/

theorem flatMap_sublist {α : Type} {f : α → List α} {as : List α}
    (h : ∀ a ∈ as, f a = [] ∨ f a = [a]) : (as.flatMap f).Sublist as := by
  induction as with
  | nil => exact .slnil
  | cons a as ih =>
    have hrest := ih fun b hb => h b (List.mem_cons_of_mem a hb)
    rw [List.flatMap_cons]
    rcases h a List.mem_cons_self with ha | ha
    · rw [ha, List.nil_append]
      exact hrest.cons a
    · rw [ha, List.singleton_append]
      exact hrest.cons_cons a

theorem length_eq_ncard {α : Type} [DecidableEq α] {as : List α} {s : Set α} (hnodup : as.Nodup)
    (hmem : ∀ a, a ∈ as ↔ a ∈ s) : as.length = s.ncard := by
  have hs : s = (as.toFinset : Set α) := by
    ext a
    rw [Finset.mem_coe, List.mem_toFinset, hmem]
  rw [hs, Set.ncard_coe_finset, List.toFinset_card_of_nodup hnodup]

theorem Trace.size_eq_ncard (t : Trace) : t.size = {id | t.contains id = true}.ncard :=
  t.length_ids.symm.trans (length_eq_ncard Std.ExtTreeMap.nodup_keys fun _ => mem_ids)

/-- the first member of an ascending list is the least one -/
theorem head?_eq_some_iff_least {ids : List InstrId}
    (h : ids.Pairwise fun i j => i.toInt < j.toInt) (id : InstrId) :
    ids.head? = some id ↔ id ∈ ids ∧ ∀ j ∈ ids, id.toInt ≤ j.toInt := by
  cases ids with
  | nil => simp
  | cons i ids =>
    have hi := (List.pairwise_cons.mp h).1
    rw [List.head?_cons, Option.some_inj]
    constructor
    · rintro rfl
      refine ⟨List.mem_cons_self, fun j hj => ?_⟩
      rcases List.mem_cons.mp hj with rfl | hj
      · exact le_refl _
      · exact le_of_lt (hi j hj)
    · rintro ⟨hmem, hleast⟩
      rcases List.mem_cons.mp hmem with rfl | hmem
      · rfl
      · have h1 := hi id hmem
        have h2 := hleast i List.mem_cons_self
        omega

/-! ## instructions that differ -/

theorem Record.deltas_ne_nil_iff {a b : Record} {stages : StageSet} :
    a.deltas b stages ≠ [] ↔
      ∃ stage, stages.contains stage = true ∧ a.stage? stage ≠ b.stage? stage := by
  constructor
  · intro h
    obtain ⟨d, hd⟩ := List.exists_mem_of_ne_nil _ h
    obtain ⟨hmem, hl, hr, hne⟩ := mem_deltas.mp hd
    exact ⟨d.stage, hmem, by rwa [← hl, ← hr]⟩
  · rintro ⟨stage, hmem, hne⟩ hnil
    have hd : ⟨stage, a.stage? stage, b.stage? stage⟩ ∈ a.deltas b stages :=
      mem_deltas.mpr ⟨hmem, rfl, rfl, hne⟩
    rw [hnil] at hd
    cases hd

namespace Trace

/-- the instruction differs: one trace lacks it, or it entered a stage of the set at different
cycles -/
def Differs (l r : Trace) (stages : StageSet) (id : InstrId) : Prop :=
  l.contains id ≠ r.contains id ∨
    ∃ a b stage, l.find? id = some a ∧ r.find? id = some b ∧ stages.contains stage = true ∧
      a.stage? stage ≠ b.stage? stage

/-- the instructions that the divergences among the findings are about -/
def divergentIds (l r : Trace) (stages : StageSet) : List InstrId :=
  ((l.findings r stages).filter Finding.isDivergence).map Finding.id

section
variable {l r : Trace} {stages : StageSet} {id : InstrId}

theorem divergence_mem_findingsAt_iff {a b : Record} (hl : l.find? id = some a)
    (hr : r.find? id = some b) :
    (∃ f ∈ l.findingsAt r stages id, f.isDivergence = true) ↔ a.deltas b stages ≠ [] := by
  rw [findingsAt_of_eq_some hl hr]
  unfold Record.labelFindings Record.timingFindings
  constructor
  · rintro ⟨f, hf, hdiv⟩ hnil
    rw [if_pos hnil, List.append_nil] at hf
    split at hf
    · cases List.mem_singleton.mp hf
      cases hdiv
    · cases hf
  · intro hne
    rw [if_neg hne]
    exact ⟨_, List.mem_append_right _ List.mem_cons_self, rfl⟩

theorem mem_divergentIds : id ∈ l.divergentIds r stages ↔ l.Differs r stages id := by
  have hfound : id ∈ l.divergentIds r stages ↔
      id ∈ l.unionIds r ∧ ∃ f ∈ l.findingsAt r stages id, f.isDivergence = true := by
    unfold divergentIds
    rw [List.mem_map]
    constructor
    · rintro ⟨f, hf, rfl⟩
      obtain ⟨hf, hdiv⟩ := List.mem_filter.mp hf
      obtain ⟨hid, hf⟩ := mem_findings.mp hf
      exact ⟨hid, f, hf, hdiv⟩
    · rintro ⟨hid, f, hf, hdiv⟩
      have hfid := id_of_mem_findingsAt hf
      subst hfid
      exact ⟨f, List.mem_filter.mpr ⟨mem_findings.mpr ⟨hid, hf⟩, hdiv⟩, rfl⟩
  rw [hfound, mem_unionIds]
  unfold Differs contains
  cases hl : l.find? id with
  | none =>
    rw [findingsAt_of_left_eq_none hl]
    cases hr : r.find? id with
    | none => simp
    | some b => simp [Finding.isDivergence, Finding.kind]
  | some a =>
    cases hr : r.find? id with
    | none =>
      rw [findingsAt_of_right_eq_none hl hr]
      simp [Finding.isDivergence, Finding.kind]
    | some b =>
      rw [divergence_mem_findingsAt_iff hl hr, Record.deltas_ne_nil_iff]
      simp

/-- at most one divergence is noted about an instruction -/
theorem ids_divergences_findingsAt (l r : Trace) (stages : StageSet) (id : InstrId) :
    ((l.findingsAt r stages id).filter Finding.isDivergence).map Finding.id = [] ∨
      ((l.findingsAt r stages id).filter Finding.isDivergence).map Finding.id = [id] := by
  unfold findingsAt Record.labelFindings Record.timingFindings
  split
  · split <;> split
    · exact Or.inl rfl
    · exact Or.inr rfl
    · exact Or.inl rfl
    · exact Or.inr rfl
  · exact Or.inr rfl
  · exact Or.inr rfl

theorem divergentIds_sublist (l r : Trace) (stages : StageSet) :
    (l.divergentIds r stages).Sublist (l.unionIds r) := by
  unfold divergentIds findings
  rw [List.filter_flatMap, List.map_flatMap]
  exact flatMap_sublist fun id _ => ids_divergences_findingsAt l r stages id

theorem pairwise_toInt_divergentIds (l r : Trace) (stages : StageSet) :
    (l.divergentIds r stages).Pairwise fun i j => i.toInt < j.toInt :=
  (l.pairwise_toInt_unionIds r).sublist (divergentIds_sublist l r stages)

theorem nodup_divergentIds (l r : Trace) (stages : StageSet) : (l.divergentIds r stages).Nodup :=
  (l.nodup_unionIds r).sublist (divergentIds_sublist l r stages)

theorem divergentIds_eq_nil_iff :
    l.divergentIds r stages = [] ↔ {id | l.Differs r stages id} = ∅ := by
  rw [List.eq_nil_iff_forall_not_mem, Set.eq_empty_iff_forall_notMem]
  exact forall_congr' fun id => not_congr mem_divergentIds

/-! ## the fields of a comparison by the instructions that differ -/

theorem divergent_compare_eq_length (l r : Trace) (stages : StageSet) :
    (l.compare r stages).divergent = (l.divergentIds r stages).length := by
  rw [divergent_compare, List.countP_eq_length_filter]
  unfold divergentIds
  rw [List.length_map]

theorem firstDivergence_compare_eq_head? (l r : Trace) (stages : StageSet) :
    (l.compare r stages).firstDivergence = (l.divergentIds r stages).head? := by
  rw [firstDivergence_compare]
  unfold divergentIds
  rw [List.head?_map, List.head?_filter]

theorem isIdentical_compare_iff :
    (l.compare r stages).isIdentical = true ↔ {id | l.Differs r stages id} = ∅ := by
  unfold Comparison.isIdentical
  rw [firstDivergence_compare_eq_head?, Option.isNone_iff_eq_none, List.head?_eq_none_iff,
    divergentIds_eq_nil_iff]

end

end Trace

theorem Comparison.exitCode_eq_zero_iff {c : Comparison} :
    c.exitCode = 0 ↔ c.isIdentical = true := by
  unfold exitCode
  split
  · exact iff_of_true rfl ‹_›
  · exact iff_of_false Nat.one_ne_zero ‹_›

theorem Comparison.exitCode_eq_one_iff {c : Comparison} :
    c.exitCode = 1 ↔ ¬ c.isIdentical = true := by
  unfold exitCode
  split
  · exact iff_of_false Nat.zero_ne_one fun h => h ‹_›
  · exact iff_of_true rfl ‹_›

/-- what a comparison must report about the instructions `ids` if those in `differing` differ -/
structure Comparison.Reports (c : Comparison) (ids differing : Set InstrId) : Prop where
  checked : c.checked = ids.ncard
  divergent : c.divergent = differing.ncard
  divergent_le_checked : c.divergent ≤ c.checked
  firstDivergence_eq_some_iff : ∀ id, c.firstDivergence = some id ↔
    id ∈ differing ∧ ∀ j ∈ differing, id.toInt ≤ j.toInt
  firstDivergence_eq_none_iff : c.firstDivergence = none ↔ differing = ∅
  isIdentical_iff : c.isIdentical = true ↔ differing = ∅
  exitCode_eq_zero_iff : c.exitCode = 0 ↔ differing = ∅
  exitCode_eq_one_iff : c.exitCode = 1 ↔ differing ≠ ∅
  nodup_divergences : ((c.findings.filter Finding.isDivergence).map Finding.id).Nodup
  mem_divergences_iff : ∀ id,
    id ∈ (c.findings.filter Finding.isDivergence).map Finding.id ↔ id ∈ differing
  divergent_eq_length : c.divergent = (c.findings.filter Finding.isDivergence).length
  firstDivergence_eq_head : c.firstDivergence =
    (c.findings.filter Finding.isDivergence).head?.map Finding.id

namespace Trace

theorem reports_compare (l r : Trace) (stages : StageSet) :
    (l.compare r stages).Reports {id | l.contains id = true ∨ r.contains id = true}
      {id | l.Differs r stages id} where
  checked := by
    rw [checked_compare]
    exact length_eq_ncard (l.nodup_unionIds r) fun _ => mem_unionIds
  divergent := by
    rw [divergent_compare_eq_length]
    exact length_eq_ncard (nodup_divergentIds l r stages) fun _ => mem_divergentIds
  divergent_le_checked := by
    rw [divergent_compare_eq_length, checked_compare]
    exact (divergentIds_sublist l r stages).length_le
  firstDivergence_eq_some_iff id := by
    rw [firstDivergence_compare_eq_head?,
      head?_eq_some_iff_least (pairwise_toInt_divergentIds l r stages)]
    simp only [mem_divergentIds, Set.mem_ofPred_eq]
  firstDivergence_eq_none_iff := by
    rw [firstDivergence_compare_eq_head?, List.head?_eq_none_iff, divergentIds_eq_nil_iff]
  isIdentical_iff := isIdentical_compare_iff
  exitCode_eq_zero_iff := Comparison.exitCode_eq_zero_iff.trans isIdentical_compare_iff
  exitCode_eq_one_iff := Comparison.exitCode_eq_one_iff.trans (not_congr isIdentical_compare_iff)
  nodup_divergences := by
    rw [findings_compare]
    exact nodup_divergentIds l r stages
  mem_divergences_iff id := by
    rw [findings_compare]
    exact mem_divergentIds
  divergent_eq_length := by
    rw [divergent_compare, findings_compare, List.countP_eq_length_filter]
  firstDivergence_eq_head := by
    rw [firstDivergence_compare, findings_compare, List.head?_filter]

/-! ## labels -/

/-- the traces have the same instructions with the same stages; labels may differ -/
def SameTiming (t t' : Trace) : Prop :=
  ∀ id, (t.find? id).map Record.stages = (t'.find? id).map Record.stages

section
variable {l l' r r' : Trace} {stages : StageSet}

theorem SameTiming.symm (h : l.SameTiming l') : l'.SameTiming l := fun id => (h id).symm

theorem SameTiming.isSome_find? (h : l.SameTiming l') (id : InstrId) :
    (l.find? id).isSome = (l'.find? id).isSome := by
  rw [← Option.isSome_map (f := Record.stages), h id, Option.isSome_map]

theorem SameTiming.differs (hl : l.SameTiming l') (hr : r.SameTiming r') {id : InstrId}
    (h : l.Differs r stages id) : l'.Differs r' stages id := by
  rcases h with h | ⟨a, b, stage, ha, hb, hmem, hne⟩
  · refine Or.inl ?_
    unfold contains at h ⊢
    rwa [← hl.isSome_find?, ← hr.isSome_find?]
  · have hla := hl id
    have hrb := hr id
    rw [ha, Option.map_some] at hla
    rw [hb, Option.map_some] at hrb
    obtain ⟨a', ha', hsa⟩ := Option.map_eq_some_iff.mp hla.symm
    obtain ⟨b', hb', hsb⟩ := Option.map_eq_some_iff.mp hrb.symm
    refine Or.inr ⟨a', b', stage, ha', hb', hmem, ?_⟩
    unfold Record.stage? at hne ⊢
    rwa [hsa, hsb]

theorem SameTiming.unionIds_eq (hl : l.SameTiming l') (hr : r.SameTiming r') :
    l'.unionIds r' = l.unionIds r :=
  unionIds_congr hl.symm.isSome_find? hr.symm.isSome_find?

theorem SameTiming.divergentIds_eq (hl : l.SameTiming l') (hr : r.SameTiming r') :
    l'.divergentIds r' stages = l.divergentIds r stages := by
  apply eq_of_pairwise_lt Int64.toInt (pairwise_toInt_divergentIds l' r' stages)
    (pairwise_toInt_divergentIds l r stages)
  intro id
  rw [mem_divergentIds, mem_divergentIds]
  exact ⟨hl.symm.differs hr.symm, hl.differs hr⟩

end

/-- **The verdict of a comparison is about the instructions that differ, and about nothing else.**
The counts, the first divergence and the exit code are those of the set of instructions that
differ, which are the ids of the divergences; other labels change none of them. -/
theorem compare_reports_differing (l r : Trace) (stages : StageSet) :
    (l.compare r stages).Reports {id | l.contains id = true ∨ r.contains id = true}
      {id | l.Differs r stages id} ∧
    ∀ l' r' : Trace, l.SameTiming l' → r.SameTiming r' →
      let c := l.compare r stages
      let c' := l'.compare r' stages
      c'.checked = c.checked ∧ c'.divergent = c.divergent ∧
      c'.firstDivergence = c.firstDivergence ∧ c'.isIdentical = c.isIdentical ∧
      c'.exitCode = c.exitCode ∧
      (c'.findings.filter Finding.isDivergence).map Finding.id =
        (c.findings.filter Finding.isDivergence).map Finding.id := by
  refine ⟨reports_compare l r stages, ?_⟩
  intro l' r' hl hr c c'
  have hids : l'.divergentIds r' stages = l.divergentIds r stages := hl.divergentIds_eq hr
  have hchecked : c'.checked = c.checked := by
    rw [checked_compare, checked_compare, hl.unionIds_eq hr]
  have hdivergent : c'.divergent = c.divergent := by
    rw [divergent_compare_eq_length, divergent_compare_eq_length, hids]
  have hfirst : c'.firstDivergence = c.firstDivergence := by
    rw [firstDivergence_compare_eq_head?, firstDivergence_compare_eq_head?, hids]
  have hidentical : c'.isIdentical = c.isIdentical := by
    unfold Comparison.isIdentical
    rw [hfirst]
  have hcode : c'.exitCode = c.exitCode := by
    unfold Comparison.exitCode
    rw [hidentical]
  refine ⟨hchecked, hdivergent, hfirst, hidentical, hcode, ?_⟩
  rw [findings_compare, findings_compare]
  exact hids

end Trace

end PipeTrace
