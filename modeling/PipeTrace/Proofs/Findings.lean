import PipeTrace.Proofs.Text.ByteOrder
import PipeTrace.Proofs.Walk

/-!
# What a comparison finds, said without the walk

`Trace.Found` says what the findings about two traces must be: the ids of both traces in ascending
numeric order, and about each of them

* that the instruction is missing, if one of the traces lacks it, and nothing else;
* otherwise that the labels differ, if they do and none is empty, and then the stages of the set
  whose cycles differ, in the order of their bytes (`Record.DeltaList`), if there are any.

There is one list of findings like that, and a comparison finds it.
-/

set_option autoImplicit false

namespace PipeTrace

/-- a strictly ordered list is determined by its members -/
theorem eq_of_pairwise_lt {α β : Type} [Preorder β] (f : α → β) {as bs : List α}
    (has : as.Pairwise fun a b => f a < f b) (hbs : bs.Pairwise fun a b => f a < f b)
    (hmem : ∀ a, a ∈ as ↔ a ∈ bs) : as = bs := by
  have nodup : ∀ {cs : List α}, (cs.Pairwise fun a b => f a < f b) → cs.Nodup := by
    intro cs h
    show cs.Pairwise (· ≠ ·)
    refine h.imp ?_
    intro a b hlt heq
    rw [heq] at hlt
    exact lt_irrefl _ hlt
  have hperm : as.Perm bs := (List.perm_ext_iff_of_nodup (nodup has) (nodup hbs)).mpr hmem
  exact hperm.eq_of_pairwise (fun a b _ _ hab hba => absurd hab (lt_asymm hba)) has hbs

theorem toInt_lt_of_compare {i j : InstrId} (h : Ord.compare i j = .lt) : i.toInt < j.toInt := by
  rwa [Std.compare_eq_lt, Int64.lt_iff_toInt_lt] at h

theorem Trace.pairwise_toInt_ids (t : Trace) : t.ids.Pairwise fun i j => i.toInt < j.toInt :=
  Std.ExtTreeMap.ordered_keys.imp toInt_lt_of_compare

theorem Trace.pairwise_toInt_unionIds (l r : Trace) :
    (l.unionIds r).Pairwise fun i j => i.toInt < j.toInt :=
  (l.ordered_unionIds r).imp toInt_lt_of_compare

/-- if the right trace knows no other instructions, the left one has all ids -/
theorem Trace.unionIds_eq_ids {l r : Trace}
    (h : ∀ id, (r.find? id).isSome → (l.find? id).isSome) : l.unionIds r = l.ids := by
  apply eq_of_pairwise_lt Int64.toInt (l.pairwise_toInt_unionIds r) l.pairwise_toInt_ids
  intro id
  rw [mem_unionIds, mem_ids]
  exact ⟨fun hid => hid.elim (fun hl => hl) (h id), Or.inl⟩

theorem Trace.unionIds_congr {l l' r r' : Trace}
    (hl : ∀ id, (l.find? id).isSome = (l'.find? id).isSome)
    (hr : ∀ id, (r.find? id).isSome = (r'.find? id).isSome) : l.unionIds r = l'.unionIds r' := by
  apply eq_of_pairwise_lt Int64.toInt (l.pairwise_toInt_unionIds r) (l'.pairwise_toInt_unionIds r')
  intro id
  rw [mem_unionIds, mem_unionIds, hl, hr]

theorem StageSet.pairwise_lt_toList (s : StageSet) : s.toList.Pairwise fun a b => a < b :=
  s.ordered_toList.imp compareOfLessAndEq_eq_lt.mp

/-! ## deltas -/

/-- what the deltas of two records must be -/
structure Record.DeltaList (a b : Record) (stages : StageSet) (ds : List StageDelta) : Prop where
  ordered : ds.Pairwise fun d e => Text.bytesOf d.stage < Text.bytesOf e.stage
  mem_iff : ∀ d, d ∈ ds ↔ stages.contains d.stage = true ∧ d.left = a.stage? d.stage ∧
    d.right = b.stage? d.stage ∧ d.left ≠ d.right

theorem Record.deltaList_deltas (a b : Record) (stages : StageSet) :
    a.DeltaList b stages (a.deltas b stages) where
  ordered := by
    have h := stages.pairwise_lt_toList.sublist (stages_deltas_sublist a b stages)
    rw [List.pairwise_map] at h
    exact h.imp Text.bytesOf_lt_bytesOf
  mem_iff _ := mem_deltas

theorem Record.DeltaList.eq_deltas {a b : Record} {stages : StageSet} {ds : List StageDelta}
    (h : a.DeltaList b stages ds) : ds = a.deltas b stages := by
  have ho : ∀ {es : List StageDelta}, a.DeltaList b stages es →
      es.Pairwise fun d e => d.stage < e.stage := fun he =>
    he.ordered.imp Text.bytesOf_lt_bytesOf_iff.mp
  have hd := a.deltaList_deltas b stages
  exact eq_of_pairwise_lt StageDelta.stage (ho h) (ho hd) fun d =>
    (h.mem_iff d).trans (hd.mem_iff d).symm

/-! ## findings -/

namespace Trace

/-- what the findings about one instruction must be -/
inductive FoundAt (l r : Trace) (stages : StageSet) (id : InstrId) : List Finding → Prop
  | onlyRight {b : Record} (hl : l.find? id = none) (hr : r.find? id = some b) :
    FoundAt l r stages id [.missing id .left]
  | onlyLeft {a : Record} (hl : l.find? id = some a) (hr : r.find? id = none) :
    FoundAt l r stages id [.missing id .right]
  | both {a b : Record} {ds : List StageDelta} (hl : l.find? id = some a)
    (hr : r.find? id = some b) (hds : a.DeltaList b stages ds) :
    FoundAt l r stages id
      ((if a.label ≠ "" ∧ b.label ≠ "" ∧ a.label ≠ b.label then
          [.labelMismatch id a.label b.label] else []) ++
        if ds = [] then [] else [.stageTiming id a.label ds])

/-- what the findings about two traces must be -/
def Found (l r : Trace) (stages : StageSet) (fs : List Finding) : Prop :=
  ∃ (ids : List InstrId) (about : InstrId → List Finding),
    (ids.Pairwise fun i j => i.toInt < j.toInt) ∧
    (∀ id, id ∈ ids ↔ l.contains id = true ∨ r.contains id = true) ∧
    (∀ id ∈ ids, l.FoundAt r stages id (about id)) ∧
    fs = ids.flatMap about

variable {l r : Trace} {stages : StageSet} {id : InstrId}

theorem foundAt_findingsAt (h : l.contains id = true ∨ r.contains id = true) :
    l.FoundAt r stages id (l.findingsAt r stages id) := by
  unfold contains at h
  cases hl : l.find? id with
  | none =>
    obtain ⟨b, hr⟩ := Option.isSome_iff_exists.mp (h.resolve_left (by rw [hl]; decide))
    rw [findingsAt_of_left_eq_none hl]
    exact .onlyRight hl hr
  | some a =>
    cases hr : r.find? id with
    | none =>
      rw [findingsAt_of_right_eq_none hl hr]
      exact .onlyLeft hl hr
    | some b =>
      rw [findingsAt_of_eq_some hl hr]
      exact .both hl hr (a.deltaList_deltas b stages)

theorem FoundAt.eq_findingsAt {fs : List Finding} (h : l.FoundAt r stages id fs) :
    fs = l.findingsAt r stages id := by
  cases h with
  | onlyRight hl hr => rw [findingsAt_of_left_eq_none hl]
  | onlyLeft hl hr => rw [findingsAt_of_right_eq_none hl hr]
  | both hl hr hds =>
    rw [findingsAt_of_eq_some hl hr, hds.eq_deltas]
    rfl

theorem found_findings (l r : Trace) (stages : StageSet) :
    l.Found r stages (l.findings r stages) :=
  ⟨l.unionIds r, l.findingsAt r stages, l.pairwise_toInt_unionIds r, fun _ => mem_unionIds,
    fun _ hid => foundAt_findingsAt (mem_unionIds.mp hid), rfl⟩

theorem Found.eq_findings {fs : List Finding} (h : l.Found r stages fs) :
    fs = l.findings r stages := by
  obtain ⟨ids, about, hord, hmem, habout, rfl⟩ := h
  have hids : ids = l.unionIds r :=
    eq_of_pairwise_lt Int64.toInt hord (l.pairwise_toInt_unionIds r) fun id =>
      (hmem id).trans mem_unionIds.symm
  rw [hids] at habout ⊢
  exact List.flatMap_congr fun id hid => (habout id hid).eq_findingsAt

theorem mem_findings {f : Finding} :
    f ∈ l.findings r stages ↔
      f.id ∈ l.unionIds r ∧ f ∈ l.findingsAt r stages f.id := by
  unfold findings
  rw [List.mem_flatMap]
  constructor
  · rintro ⟨id, hid, hf⟩
    rw [id_of_mem_findingsAt hf]
    exact ⟨hid, hf⟩
  · rintro ⟨hid, hf⟩
    exact ⟨f.id, hid, hf⟩

/-- what a timing finding says of the two records -/
theorem stageTiming_mem_findings_iff {label : String} {deltas : List StageDelta} :
    .stageTiming id label deltas ∈ l.findings r stages ↔
      ∃ a b, l.find? id = some a ∧ r.find? id = some b ∧ label = a.label ∧
        deltas = a.deltas b stages ∧ a.deltas b stages ≠ [] := by
  rw [mem_findings]
  show id ∈ _ ∧ _ ∈ l.findingsAt r stages id ↔ _
  constructor
  · intro h
    obtain ⟨-, h⟩ := h
    unfold findingsAt Record.labelFindings Record.timingFindings at h
    split at h
    · rename_i a b hl hr
      rcases List.mem_append.mp h with h | h
      · split at h
        · cases List.mem_singleton.mp h
        · cases h
      · split at h
        · cases h
        · rename_i hne
          cases List.mem_singleton.mp h
          exact ⟨a, b, hl, hr, rfl, rfl, hne⟩
    · cases List.mem_singleton.mp h
    · cases List.mem_singleton.mp h
  · intro h
    obtain ⟨a, b, hl, hr, rfl, rfl, hne⟩ := h
    rw [findingsAt_of_eq_some hl hr]
    unfold Record.timingFindings
    rw [if_neg hne]
    exact ⟨mem_unionIds.mpr (Or.inl (Option.isSome_of_eq_some hl)),
      List.mem_append_right _ (List.mem_singleton_self _)⟩

/-- a finding that an instruction is missing is the only one about it -/
theorem eq_of_mem_findingsAt_of_presence {f g : Finding} (hf : f ∈ l.findingsAt r stages id)
    (hg : g ∈ l.findingsAt r stages id) (hkind : f.kind = .presence) : g = f := by
  cases hl : l.find? id with
  | none =>
    rw [findingsAt_of_left_eq_none hl] at hf hg
    rw [List.mem_singleton.mp hf, List.mem_singleton.mp hg]
  | some a =>
    cases hr : r.find? id with
    | none =>
      rw [findingsAt_of_right_eq_none hl hr] at hf hg
      rw [List.mem_singleton.mp hf, List.mem_singleton.mp hg]
    | some b =>
      -- of an instruction in both traces only labels and stages are noted
      rw [findingsAt_of_eq_some hl hr] at hf
      unfold Record.labelFindings Record.timingFindings at hf
      rcases List.mem_append.mp hf with hf | hf
      · split at hf
        · cases List.mem_singleton.mp hf
          cases hkind
        · cases hf
      · split at hf
        · cases hf
        · cases List.mem_singleton.mp hf
          cases hkind

/-- **A comparison finds what must be found, and nothing else; what is missing is found once.** -/
theorem found_iff_eq_findings_compare (l r : Trace) (stages : StageSet) :
    (∀ fs, l.Found r stages fs ↔ fs = (l.compare r stages).findings) ∧
    ∀ f ∈ (l.compare r stages).findings, ∀ g ∈ (l.compare r stages).findings,
      f.id = g.id → f.kind = .presence → g = f := by
  rw [findings_compare]
  constructor
  · intro fs
    constructor
    · exact Found.eq_findings
    · rintro rfl
      exact found_findings l r stages
  · intro f hf g hg hid hkind
    have hf' := (mem_findings.mp hf).2
    have hg' := (mem_findings.mp hg).2
    rw [← hid] at hg'
    exact eq_of_mem_findingsAt_of_presence hf' hg' hkind

end Trace

end PipeTrace
