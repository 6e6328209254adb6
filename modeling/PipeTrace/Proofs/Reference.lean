import Mathlib.Data.Finset.Card
import Mathlib.Data.Finset.Dedup
import PipeTrace.Proofs.Replay

/-!
# A trace and the chronicle of its log

What the marks of a log amount to: an instruction is known if the log names it, its label is the
last one given, and each of its stages has the cycle of the first entry.  A loader that starts at
the first line ends with exactly that (`Loader.replay_follows_chronicle`).
-/

set_option autoImplicit false

namespace PipeTrace

/-! ## a record under marks -/

namespace Record

/-- the last label stays -/
theorem label_follow (r : Record) (ms : List Mark) :
    (r.follow ms).label = (ms.filterMap Mark.label?).getLast?.getD r.label := by
  induction ms generalizing r with
  | nil => rfl
  | cons m ms ih =>
    rw [follow_cons, ih]
    cases m with
    | introduced _ => rfl
    | labelled _ text =>
      show _ = (text :: ms.filterMap Mark.label?).getLast?.getD r.label
      rw [List.getLast?_cons, Option.getD_some]
      rfl
    | entered _ stage cycle =>
      show _ = (ms.filterMap Mark.label?).getLast?.getD r.label
      rw [show (Mark.entered _ stage cycle).update r = r.enter stage (Int64.ofInt cycle) from rfl,
        label_enter]

/-- the first entry of a stage stays -/
theorem stage?_follow (r : Record) (ms : List Mark) (stage : String) :
    (r.follow ms).stage? stage =
      (r.stage? stage).or (((ms.filterMap Mark.entry?).lookup stage).map Int64.ofInt) := by
  induction ms generalizing r with
  | nil => rw [List.filterMap_nil, List.lookup_nil, Option.map_none, Option.or_none]; rfl
  | cons m ms ih =>
    rw [follow_cons, ih]
    cases m with
    | introduced _ => rfl
    | labelled _ _ => rfl
    | entered _ stage' cycle =>
      show ((r.enter stage' (Int64.ofInt cycle)).stage? stage).or _ =
        (r.stage? stage).or ((((stage', cycle) :: ms.filterMap Mark.entry?).lookup stage).map _)
      rw [stage?_enter, List.lookup_cons]
      by_cases h : stage' = stage
      · subst h
        rw [if_pos rfl, beq_self_eq_true]
        cases r.stage? stage' <;> rfl
      · rw [if_neg h, beq_eq_false_iff_ne.mpr (Ne.symm h)]

theorem mem_keys_stages {r : Record} {stage : String} :
    stage ∈ r.stages.keys ↔ (r.stage? stage).isSome := by
  rw [Std.ExtTreeMap.mem_keys, Std.ExtTreeMap.mem_iff_isSome_getElem?]
  rfl

theorem stageCount_eq_card (r : Record) : r.stageCount = r.stages.keys.toFinset.card := by
  rw [List.toFinset_card_of_nodup Std.ExtTreeMap.nodup_keys, Std.ExtTreeMap.length_keys]
  rfl

end Record

theorem Trace.size_eq_card (t : Trace) : t.size = t.ids.toFinset.card := by
  have hnodup : t.ids.Nodup := Std.ExtTreeMap.nodup_keys
  rw [List.toFinset_card_of_nodup hnodup, length_ids]

/-! ## the chronicle of an instruction -/

namespace Chronicle

/-- what a log says of one instruction, in the order of its lines -/
def marksOf (lines : List String) (id : InstrId) : List Mark :=
  (marks lines).filter (·.id = id)

/-- the labels that a log gives an instruction, in the order of its lines -/
def labels (lines : List String) (id : InstrId) : List String :=
  (marksOf lines id).filterMap Mark.label?

/-- the stages that a log lets an instruction enter, with the cycles, in the order of its lines -/
def entries (lines : List String) (id : InstrId) : List (String × Int) :=
  (marksOf lines id).filterMap Mark.entry?

def named (lines : List String) : Finset InstrId := ((marks lines).map Mark.id).toFinset

/-- what is read off one kind of mark of an instruction -/
theorem mem_filterMap_marksOf {α : Type} {of? : Mark → Option α} {lines : List String}
    {id : InstrId} {a : α} {mark : Mark} (h : ∀ m, m.id = id ∧ of? m = some a ↔ m = mark) :
    a ∈ (marksOf lines id).filterMap of? ↔ mark ∈ marks lines := by
  unfold marksOf
  simp only [List.mem_filterMap, List.mem_filter, decide_eq_true_eq, and_assoc, h,
    exists_eq_right]

theorem mem_labels {lines : List String} {id : InstrId} {text : String} :
    text ∈ labels lines id ↔ .labelled id text ∈ marks lines := by
  refine mem_filterMap_marksOf fun m => ?_
  cases m <;> simp [Mark.id, Mark.label?]

theorem mem_entries {lines : List String} {id : InstrId} {stage : String} {cycle : Int} :
    (stage, cycle) ∈ entries lines id ↔ .entered id stage cycle ∈ marks lines := by
  refine mem_filterMap_marksOf fun m => ?_
  cases m <;> simp [Mark.id, Mark.entry?]

end Chronicle

open Chronicle

namespace Loader

theorem recordOf_replay (source : String) (lines : List String) (id : InstrId) :
    (replay source lines).trace.recordOf id =
      ({ id } : Record).follow (marksOf lines id) := by
  unfold replay
  rw [recordOf_feedAll]
  have h : (start source).trace.recordOf id = { id } := by
    unfold Trace.recordOf start
    rw [Trace.find?_new, Option.getD_none]
  rw [h]
  rfl

theorem isSome_find?_replay (source : String) (lines : List String) (id : InstrId) :
    ((replay source lines).trace.find? id).isSome ↔ id ∈ named lines := by
  unfold replay
  rw [isSome_find?_feedAll]
  have h : (start source).trace.find? id = none := Trace.find?_new source id
  unfold named
  rw [h, List.mem_toFinset, List.mem_map, Option.isSome_none]
  simp only [Bool.false_eq_true, false_or]
  rfl

theorem find?_replay (source : String) (lines : List String) (id : InstrId) :
    (replay source lines).trace.find? id =
      if id ∈ named lines then some ((replay source lines).trace.recordOf id) else none := by
  have hsome := isSome_find?_replay source lines id
  by_cases hid : id ∈ named lines
  · rw [if_pos hid, Trace.find?_eq_some_recordOf (hsome.mpr hid)]
  · rw [if_neg hid, Option.not_isSome_iff_eq_none.mp (mt hsome.mp hid)]

theorem label_replay (source : String) (lines : List String) (id : InstrId) :
    ((replay source lines).trace.recordOf id).label =
      (labels lines id).getLast?.getD "" := by
  rw [recordOf_replay, Record.label_follow]
  rfl

theorem stage?_replay (source : String) (lines : List String) (id : InstrId) (stage : String) :
    (((replay source lines).trace.recordOf id).stage? stage).map Int64.toInt =
      (entries lines id).lookup stage := by
  rw [recordOf_replay, Record.stage?_follow, Record.stage?_new, Option.none_or]
  show (((entries lines id).lookup stage).map Int64.ofInt).map Int64.toInt = _
  cases h : (entries lines id).lookup stage with
  | none => rfl
  | some cycle =>
    -- an entry that was accepted is a word, so nothing is lost by writing it as one
    obtain ⟨before, after, he, _⟩ := List.lookup_eq_some_iff.mp h
    have hmem : (stage, cycle) ∈ entries lines id := by
      rw [he]
      exact List.mem_append_right before List.mem_cons_self
    have hfits := fits_of_mem_marksFrom (mem_entries.mp hmem)
    rw [Option.map_some, Option.map_some, Word.toInt_ofInt_of_fits hfits]

theorem stageCount_replay (source : String) (lines : List String) (id : InstrId) :
    ((replay source lines).trace.recordOf id).stageCount =
      ((entries lines id).map Prod.fst).toFinset.card := by
  rw [Record.stageCount_eq_card]
  congr 1
  ext stage
  rw [List.mem_toFinset, List.mem_toFinset, Record.mem_keys_stages,
    ← Option.isSome_map (f := Int64.toInt), stage?_replay, List.lookup_isSome_iff, List.mem_map]
  constructor
  · rintro ⟨entry, hmem, heq⟩
    exact ⟨entry, hmem, (eq_of_beq heq).symm⟩
  · rintro ⟨entry, hmem, heq⟩
    exact ⟨entry, hmem, beq_iff_eq.mpr heq.symm⟩

theorem size_replay (source : String) (lines : List String) :
    (replay source lines).trace.size = (named lines).card := by
  rw [Trace.size_eq_card]
  congr 1
  ext id
  rw [List.mem_toFinset, Trace.mem_ids, isSome_find?_replay]

theorem stage?_replay_congr {source source' : String} {lines lines' : List String} {id : InstrId}
    {stage : String}
    (h : (entries lines id).lookup stage = (entries lines' id).lookup stage) :
    ((replay source lines).trace.recordOf id).stage? stage =
      ((replay source' lines').trace.recordOf id).stage? stage := by
  apply Option.map_injective fun _ _ => Int64.toInt.inj
  rw [stage?_replay, stage?_replay, h]

/-- the record of an instruction depends on a few things that a log says of it -/
theorem find?_replay_congr {source source' : String} {lines lines' : List String} {id : InstrId}
    (hnamed : id ∈ named lines ↔ id ∈ named lines') (hlabels : labels lines id = labels lines' id)
    (hentries : ∀ stage, (entries lines id).lookup stage = (entries lines' id).lookup stage) :
    (replay source lines).trace.find? id =
      (replay source' lines').trace.find? id := by
  rw [find?_replay, find?_replay]
  by_cases hid : id ∈ named lines
  · rw [if_pos hid, if_pos (hnamed.mp hid)]
    congr 1
    refine Record.ext_stage? ?_ ?_ fun stage => ?_
    · rw [Trace.id_recordOf, Trace.id_recordOf]
    · rw [label_replay, label_replay, hlabels]
    · exact stage?_replay_congr (hentries stage)
  · rw [if_neg hid, if_neg (mt hnamed.mpr hid)]

/-- **A replayed log leaves what its chronicle says.**  After every line the counter is the exact
one; in the end there is a record for each instruction that is named and for no other, with the last
label and the first cycle of each stage. -/
theorem replay_follows_chronicle (source : String) (lines : List String) :
    (∀ k, (replay source (lines.take k)).cycle.toInt = counter (lines.take k)) ∧
    (replay source lines).trace.size = (named lines).card ∧
    ∀ id,
      match (replay source lines).trace.find? id with
      | none => id ∉ named lines
      | some r =>
        id ∈ named lines ∧ r.id = id ∧ r.label = (labels lines id).getLast?.getD "" ∧
          (∀ stage, (r.stage? stage).map Int64.toInt = (entries lines id).lookup stage) ∧
          r.stageCount = ((entries lines id).map Prod.fst).toFinset.card := by
  refine ⟨fun k => toInt_cycle_feedAll _ _, size_replay source lines, fun id => ?_⟩
  have hsome := isSome_find?_replay source lines id
  cases hr : (replay source lines).trace.find? id with
  | none =>
    rw [hr] at hsome
    exact fun hid => Bool.false_ne_true (hsome.mpr hid)
  | some r =>
    have hrec : (replay source lines).trace.recordOf id = r := by
      unfold Trace.recordOf
      rw [hr, Option.getD_some]
    rw [hr] at hsome
    show _ ∧ _
    rw [← hrec]
    exact ⟨hsome.mp rfl, Trace.id_recordOf _ id, label_replay source lines id,
      stage?_replay source lines id, stageCount_replay source lines id⟩

end Loader

end PipeTrace
