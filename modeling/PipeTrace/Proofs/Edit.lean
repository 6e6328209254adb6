import PipeTrace.Proofs.Findings
import PipeTrace.Proofs.Reference

/-!
# A log with one edited entry

One line of a log lets an instruction enter a stage, and is replaced by a line that differs in the
cycle only.  The counter stays the same at every line, and so do all marks but one.  If that entry
is the first of its stage, and the stage is compared, a comparison of both logs finds just this
entry; otherwise it finds nothing (`Trace.compare_replay_set`).
-/

set_option autoImplicit false

namespace PipeTrace

theorem lookup_singleton_of_ne {stage stage' : String} (h : stage' ≠ stage) (cycle : Int) :
    [(stage, cycle)].lookup stage' = none := by
  rw [List.lookup_cons, beq_eq_false_iff_ne.mpr h, List.lookup_nil]

namespace Chronicle

section
variable {n : Int} {lines : List String} {k : Nat} {line line' : String} {id : InstrId}
  {relative : Cycle} {stage : String}

theorem next_of_enter (h : Event.parse line = .ok (some (.enter id relative stage))) (n : Int) :
    next n line = n := by
  unfold next
  rw [h]

theorem mark?_of_enter (h : Event.parse line = .ok (some (.enter id relative stage)))
    (hfits : Word.Fits (n + relative.toInt)) :
    mark? n line = some (.entered id stage (n + relative.toInt)) := by
  unfold mark?
  rw [h]
  exact if_pos hfits

/-- the marks of a log around an entry -/
theorem marks_of_enter (hline : lines[k]? = some line)
    (hparse : Event.parse line = .ok (some (.enter id relative stage)))
    (hfits : Word.Fits (counter (lines.take k) + relative.toInt)) :
    marks lines = marks (lines.take k) ++
      .entered id stage (counter (lines.take k) + relative.toInt) ::
        marksFrom (counter (lines.take k)) (lines.drop (k + 1)) := by
  obtain ⟨hk, hget⟩ := List.getElem?_eq_some_iff.mp hline
  have hsplit : lines.take k ++ line :: lines.drop (k + 1) = lines := by
    rw [← hget, List.getElem_cons_drop, List.take_append_drop]
  calc marks lines = marksFrom 0 (lines.take k ++ line :: lines.drop (k + 1)) := by rw [hsplit]; rfl
    _ = marks (lines.take k) ++ marksFrom (counter (lines.take k)) (line :: lines.drop (k + 1)) :=
      marksFrom_append _ _ _
    _ = _ := by rw [marksFrom, mark?_of_enter hparse hfits, next_of_enter hparse]; rfl

/-- the edited log has the same lines before the entry and after it -/
theorem marks_set_of_enter (hline : lines[k]? = some line)
    (hparse : Event.parse line' = .ok (some (.enter id relative stage)))
    (hfits : Word.Fits (counter (lines.take k) + relative.toInt)) :
    marks (lines.set k line') = marks (lines.take k) ++
      .entered id stage (counter (lines.take k) + relative.toInt) ::
        marksFrom (counter (lines.take k)) (lines.drop (k + 1)) := by
  obtain ⟨hk, _⟩ := List.getElem?_eq_some_iff.mp hline
  have htake : (lines.set k line').take k = lines.take k := List.take_set_of_le (Nat.le_refl k)
  have hdrop : (lines.set k line').drop (k + 1) = lines.drop (k + 1) :=
    List.drop_set_of_lt (Nat.lt_succ_self k)
  have h := marks_of_enter (List.getElem?_set_self hk) hparse (by rwa [htake])
  rwa [htake, hdrop] at h

end

/-! ## what an entry adds to a log -/

section
variable {lines : List String} {before after : List Mark} {id : InstrId} {stage : String}
  {cycle : Int}

theorem named_of_marks (h : marks lines = before ++ .entered id stage cycle :: after) :
    named lines = (before.map Mark.id ++ id :: after.map Mark.id).toFinset := by
  unfold named
  rw [h, List.map_append]
  rfl

theorem labels_of_marks (h : marks lines = before ++ .entered id stage cycle :: after)
    (id' : InstrId) :
    labels lines id' =
      ((before ++ after).filter (·.id = id')).filterMap Mark.label? := by
  unfold labels marksOf
  rw [h, List.filter_append, List.filter_append, List.filterMap_append, List.filterMap_append,
    List.filter_cons]
  split <;> rfl

theorem entries_of_marks (h : marks lines = before ++ .entered id stage cycle :: after)
    (id' : InstrId) :
    entries lines id' =
      (before.filter (·.id = id')).filterMap Mark.entry? ++
        ((if id = id' then [(stage, cycle)] else []) ++
          (after.filter (·.id = id')).filterMap Mark.entry?) := by
  unfold entries marksOf
  rw [h, List.filter_append, List.filterMap_append]
  by_cases hid : id = id'
  · have hf : (Mark.entered id stage cycle :: after).filter (·.id = id') =
        .entered id stage cycle :: after.filter (·.id = id') :=
      List.filter_cons_of_pos (decide_eq_true hid)
    rw [if_pos hid, hf]
    rfl
  · have hf : (Mark.entered id stage cycle :: after).filter (·.id = id') =
        after.filter (·.id = id') :=
      List.filter_cons_of_neg fun hd => hid (of_decide_eq_true hd)
    rw [if_neg hid, hf]
    rfl

end

end Chronicle

open Chronicle

/-! ## two logs that differ in the cycle of one entry -/

section
variable {lines : List String} {before after : List Mark} {id : InstrId} {stage : String}
  {cycle : Int} (h : marks lines = before ++ .entered id stage cycle :: after) (source : String)
include h

theorem Loader.isSome_find?_edited : ((replay source lines).trace.find? id).isSome := by
  rw [isSome_find?_replay, named_of_marks h]
  simp

/-- the first entry of a stage sets its cycle -/
theorem Loader.stage?_eq_of_entered_first
    (hbefore : ((before.filter (·.id = id)).filterMap Mark.entry?).lookup stage = none) :
    ((replay source lines).trace.recordOf id).stage? stage = some (Int64.ofInt cycle) := by
  have hs := stage?_replay source lines id stage
  rw [entries_of_marks h, if_pos rfl, List.lookup_append, hbefore, Option.none_or,
    List.singleton_append, List.lookup_cons_self] at hs
  obtain ⟨w, hw, hcycle⟩ := Option.map_eq_some_iff.mp hs
  rw [hw, ← hcycle, Int64.ofInt_toInt]

end

section
variable {lines lines' : List String} {before after : List Mark} {id : InstrId} {stage : String}
  {cycle cycle' : Int} (h : marks lines = before ++ .entered id stage cycle :: after)
  (h' : marks lines' = before ++ .entered id stage cycle' :: after) (source source' : String)
include h h'

theorem Loader.find?_eq_of_ne_edited {id' : InstrId} (hne : id' ≠ id) :
    (replay source lines).trace.find? id' =
      (replay source' lines').trace.find? id' := by
  apply find?_replay_congr
  · rw [named_of_marks h, named_of_marks h']
  · rw [labels_of_marks h, labels_of_marks h']
  · intro stage'
    rw [entries_of_marks h, entries_of_marks h', if_neg (Ne.symm hne), if_neg (Ne.symm hne)]

theorem Loader.lookup_eq_of_ne_edited {stage' : String} (hne : stage' ≠ stage) :
    (entries lines id).lookup stage' = (entries lines' id).lookup stage' := by
  rw [entries_of_marks h, entries_of_marks h', if_pos rfl, if_pos rfl]
  simp only [List.lookup_append]
  rw [lookup_singleton_of_ne hne, lookup_singleton_of_ne hne]

/-- an entry that is not the first of its stage has no effect, whatever its cycle -/
theorem Loader.find?_eq_of_entered_before {c : Int}
    (hbefore : ((before.filter (·.id = id)).filterMap Mark.entry?).lookup stage = some c)
    (id' : InstrId) :
    (replay source lines).trace.find? id' =
      (replay source' lines').trace.find? id' := by
  by_cases hid : id' = id
  · subst hid
    apply find?_replay_congr
    · rw [named_of_marks h, named_of_marks h']
    · rw [labels_of_marks h, labels_of_marks h']
    · intro stage'
      by_cases hs : stage' = stage
      · rw [hs, entries_of_marks h, entries_of_marks h']
        simp only [List.lookup_append, hbefore, Option.some_or]
      · exact lookup_eq_of_ne_edited h h' hs
  · exact find?_eq_of_ne_edited h h' source source' hid

/-- of two logs that differ in the first entry of a stage only the findings about its instruction
remain -/
theorem Loader.findings_of_edited (stages : StageSet) :
    (replay source lines).trace.findings (replay source' lines').trace stages =
      ((replay source lines).trace.recordOf id).timingFindings
        ((replay source' lines').trace.recordOf id) stages id := by
  have hsome := Trace.find?_eq_some_recordOf (isSome_find?_edited h source)
  have hsome' := Trace.find?_eq_some_recordOf (isSome_find?_edited h' source')
  have hid : id ∈ (replay source lines).trace.unionIds (replay source' lines').trace :=
    Trace.mem_unionIds.mpr (Or.inl (isSome_find?_edited h source))
  rw [Trace.findings_eq_findingsAt hid fun id' hid' hne => Trace.findingsAt_of_find?_eq
      (find?_eq_of_ne_edited h h' source source' hne) hid',
    Trace.findingsAt_of_eq_some hsome hsome', Record.labelFindings_of_label_eq, List.nil_append]
  rw [label_replay, label_replay, labels_of_marks h, labels_of_marks h']

theorem Loader.stage?_eq_of_ne_edited {stage' : String} (hne : stage' ≠ stage) :
    ((replay source lines).trace.recordOf id).stage? stage' =
      ((replay source' lines').trace.recordOf id).stage? stage' :=
  stage?_replay_congr (lookup_eq_of_ne_edited h h' hne)

/-- the first entry of a compared stage is the only thing that is found -/
theorem Loader.findings_of_edited_first {stages : StageSet}
    (hmem : stages.contains stage = true)
    (hbefore : ((before.filter (·.id = id)).filterMap Mark.entry?).lookup stage = none)
    (hne : Int64.ofInt cycle ≠ Int64.ofInt cycle') :
    (replay source lines).trace.findings (replay source' lines').trace stages =
      [.stageTiming id ((labels lines id).getLast?.getD "")
        [{ stage, left := some (Int64.ofInt cycle), right := some (Int64.ofInt cycle') }]] := by
  have hleft := stage?_eq_of_entered_first h source hbefore
  have hright := stage?_eq_of_entered_first h' source' hbefore
  have hcycle : ((replay source lines).trace.recordOf id).stage? stage ≠
      ((replay source' lines').trace.recordOf id).stage? stage := by
    rw [hleft, hright]
    exact fun heq => hne (Option.some_inj.mp heq)
  have hdeltas := Record.deltas_eq_singleton hmem hcycle fun stage' hs =>
    stage?_eq_of_ne_edited h h' source source' hs
  rw [findings_of_edited h h']
  unfold Record.timingFindings
  rw [hdeltas, if_neg (List.cons_ne_nil _ _), hleft, hright, label_replay]

/-- any other entry makes no difference -/
theorem Loader.findings_of_edited_eq_nil {stages : StageSet}
    (hnot : ¬ (stages.contains stage = true ∧
      ((before.filter (·.id = id)).filterMap Mark.entry?).lookup stage = none)) :
    (replay source lines).trace.findings (replay source' lines').trace stages = [] := by
  cases hbefore : ((before.filter (·.id = id)).filterMap Mark.entry?).lookup stage with
  | some c =>
    exact Trace.findings_eq_nil fun id' hid' => Trace.findingsAt_of_find?_eq
      (find?_eq_of_entered_before h h' source source' hbefore id') hid'
  | none =>
    have hdeltas : ((replay source lines).trace.recordOf id).deltas
        ((replay source' lines').trace.recordOf id) stages = [] := by
      refine Record.deltas_eq_nil fun stage' hs => stage?_eq_of_ne_edited h h' source source' ?_
      rintro rfl
      exact hnot ⟨hs, hbefore⟩
    rw [findings_of_edited h h']
    exact Record.timingFindings_of_deltas_eq_nil hdeltas id

/-- the edited log names the same instructions -/
theorem Loader.unionIds_edited :
    (replay source lines).trace.unionIds (replay source' lines').trace =
      (replay source lines).trace.ids := by
  refine Trace.unionIds_eq_ids fun id' => ?_
  rw [isSome_find?_replay, isSome_find?_replay, named_of_marks h, named_of_marks h']
  exact fun hid => hid

end

/-- **One edited entry is found exactly.**  A line that lets an instruction enter a stage is
replaced by one that differs in the cycle only.  If the stage is compared and was not entered
before, the comparison of both logs finds that stage of that instruction, with both cycles, and
nothing else; otherwise it finds nothing. -/
theorem Trace.compare_replay_set (source source' : String) (stages : StageSet)
    {lines : List String} {k : Nat} {line line' : String} {id : InstrId}
    {relative relative' : Cycle} {stage : String} (hline : lines[k]? = some line)
    (hparse : Event.parse line = .ok (some (.enter id relative stage)))
    (hfits : Word.Fits (counter (lines.take k) + relative.toInt))
    (hparse' : Event.parse line' = .ok (some (.enter id relative' stage)))
    (hfits' : Word.Fits (counter (lines.take k) + relative'.toInt))
    (hne : relative' ≠ relative) :
    let t := (Loader.replay source lines).trace
    let t' := (Loader.replay source' (lines.set k line')).trace
    let result := t.compare t' stages
    (stages.contains stage = true ∧ (entries (lines.take k) id).lookup stage = none →
      result.exitCode = 1 ∧ result.divergent = 1 ∧ result.firstDivergence = some id ∧
      result.checked = t.size ∧
      result.findings = [.stageTiming id ((labels lines id).getLast?.getD "")
        [{ stage
           left := some (Int64.ofInt (counter (lines.take k) + relative.toInt))
           right := some (Int64.ofInt (counter (lines.take k) + relative'.toInt)) }]]) ∧
    (¬ (stages.contains stage = true ∧ (entries (lines.take k) id).lookup stage = none) →
      result.findings = [] ∧ result.exitCode = 0) := by
  intro t t' result
  have hm := marks_of_enter hline hparse hfits
  have hm' := marks_set_of_enter hline hparse' hfits'
  have hcycle : Int64.ofInt (counter (lines.take k) + relative.toInt) ≠
      Int64.ofInt (counter (lines.take k) + relative'.toInt) := by
    intro heq
    have hint := congrArg Int64.toInt heq
    rw [Word.toInt_ofInt_of_fits hfits, Word.toInt_ofInt_of_fits hfits'] at hint
    exact hne (Int64.toInt.inj (by omega))
  constructor
  · rintro ⟨hmem, hbefore⟩
    have hfindings := Loader.findings_of_edited_first hm hm' source source' hmem hbefore hcycle
    obtain ⟨hcode, hdivergent, hfirst⟩ := verdict_of_findings_eq_singleton hfindings rfl
    have hchecked : result.checked = t.size := by
      rw [checked_compare, Loader.unionIds_edited hm hm', length_ids]
    exact ⟨hcode, hdivergent, hfirst, hchecked, (findings_compare t t' stages).trans hfindings⟩
  · intro hnot
    have hfindings := Loader.findings_of_edited_eq_nil hm hm' source source' hnot
    exact ⟨(findings_compare t t' stages).trans hfindings,
      exitCode_compare_of_findings_eq_nil hfindings⟩

/-- an entry at cycle 10 moved to cycle 11, with a later entry of the same stage behind it -/
theorem Trace.compare_replay_set_mul :
    Event.parse "S\t7\t1\tEX" = .ok (some (.enter 7 1 "EX")) ∧
    Event.parse "S\t7\t2\tEX" = .ok (some (.enter 7 2 "EX")) ∧
    ((Loader.replay "a" ["C\t9", "L\t7\t0\tmul", "S\t7\t1\tEX", "S\t7\t5\tEX"]).trace.compare
        (Loader.replay "b" ["C\t9", "L\t7\t0\tmul", "S\t7\t2\tEX", "S\t7\t5\tEX"]).trace
        .standard).findings =
      [.stageTiming 7 "mul" [{ stage := "EX", left := some 10, right := some 11 }]] := by
  have hparse : Event.parse "S\t7\t1\tEX" = .ok (some (.enter 7 1 "EX")) := by decide +kernel
  have hparse' : Event.parse "S\t7\t2\tEX" = .ok (some (.enter 7 2 "EX")) := by decide +kernel
  have hline : ["C\t9", "L\t7\t0\tmul", "S\t7\t1\tEX", "S\t7\t5\tEX"][2]? =
      some "S\t7\t1\tEX" := rfl
  have hcounter : counter (["C\t9", "L\t7\t0\tmul", "S\t7\t1\tEX", "S\t7\t5\tEX"].take 2) = 9 := by
    decide +kernel
  have hnew : (entries (["C\t9", "L\t7\t0\tmul", "S\t7\t1\tEX", "S\t7\t5\tEX"].take 2) 7).lookup
      "EX" = none := by decide +kernel
  have hlabel : (labels ["C\t9", "L\t7\t0\tmul", "S\t7\t1\tEX", "S\t7\t5\tEX"] 7).getLast?.getD
      "" = "mul" := by decide +kernel
  have hmem : StageSet.standard.contains "EX" = true := by decide +kernel
  have h := compare_replay_set "a" "b" .standard hline hparse (by rw [hcounter]; decide) hparse'
    (by rw [hcounter]; decide) (by decide)
  obtain ⟨-, -, -, -, hfindings⟩ := h.1 ⟨hmem, hnew⟩
  rw [hcounter, hlabel] at hfindings
  exact ⟨hparse, hparse', hfindings⟩

end PipeTrace
