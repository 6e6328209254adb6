import PipeTrace.Proofs.Edit
import PipeTrace.Proofs.Inert
import PipeTrace.Proofs.Timing

/-!
# Lines that a comparison does not look at

Two logs are read side by side.  In each place stand one line and the same, two labels of one
instruction, two entries of one instruction into stages that are not compared, or two lines without
an event (`Chronicle.Exchangeable`):

* `Mark.restrict`                     what remains of a mark if only the stages of a set count;
* `Chronicle.Exchangeable.step_eq`    in one place the counters stay equal, and the same remains;
* `Chronicle.map_restrict_marksFrom`  so the same remains of both logs;
* `Loader.timing?_replay_congr`       what remains of a log makes the timing of its instructions.

Hence a comparison of both logs finds at most labels (`Trace.compare_replay_exchanged`).
-/

set_option autoImplicit false

namespace PipeTrace

/-! ## marks with the stages of a set only -/

namespace Mark

/-- what remains of a mark if labels and other stages than those of a set do not count: that the
instruction is there -/
def restrict (stages : StageSet) : Mark → Mark
  | .introduced id => .introduced id
  | .labelled id _ => .introduced id
  | .entered id stage cycle =>
    if stages.contains stage then .entered id stage cycle else .introduced id

variable {stages : StageSet}

theorem restrict_entered_of_contains {stage : String} (h : stages.contains stage = true)
    (id : InstrId) (cycle : Int) :
    restrict stages (.entered id stage cycle) = .entered id stage cycle := if_pos h

theorem restrict_entered_of_not_contains {stage : String} (h : ¬ stages.contains stage = true)
    (id : InstrId) (cycle : Int) :
    restrict stages (.entered id stage cycle) = .introduced id := if_neg h

theorem id_restrict (m : Mark) : (m.restrict stages).id = m.id := by
  cases m with
  | introduced _ => rfl
  | labelled _ _ => rfl
  | entered id stage cycle =>
    by_cases h : stages.contains stage = true
    · rw [restrict_entered_of_contains h]
    · rw [restrict_entered_of_not_contains h]
      rfl

/-- the stages of the set have the same first entries -/
theorem lookup_entries_restrict {stage : String} (h : stages.contains stage = true)
    (ms : List Mark) :
    ((ms.map (restrict stages)).filterMap entry?).lookup stage =
      (ms.filterMap entry?).lookup stage := by
  induction ms with
  | nil => rfl
  | cons m ms ih =>
    rw [List.map_cons]
    cases m with
    | introduced _ => exact ih
    | labelled _ _ => exact ih
    | entered id stage' cycle =>
      show _ = ((stage', cycle) :: ms.filterMap entry?).lookup stage
      by_cases hs : stages.contains stage' = true
      · rw [restrict_entered_of_contains hs]
        show ((stage', cycle) :: (ms.map (restrict stages)).filterMap entry?).lookup stage = _
        rw [List.lookup_cons, List.lookup_cons, ih]
      · have hne : stage ≠ stage' := by
          rintro rfl
          exact hs h
        rw [restrict_entered_of_not_contains hs, List.lookup_cons, beq_eq_false_iff_ne.mpr hne]
        exact ih

end Mark

/-! ## what remains of a log makes the timing -/

open Chronicle

section
variable {stages : StageSet} {lines lines' : List String}
  (h : (marks lines).map (Mark.restrict stages) = (marks lines').map (Mark.restrict stages))
include h

theorem Chronicle.named_congr : named lines = named lines' := by
  unfold named
  rw [← Mark.map_id_map_of_id_eq Mark.id_restrict, h,
    Mark.map_id_map_of_id_eq Mark.id_restrict]

theorem Chronicle.lookup_entries_congr {stage : String} (hs : stages.contains stage = true)
    (id : InstrId) : (entries lines id).lookup stage = (entries lines' id).lookup stage := by
  unfold entries marksOf
  rw [← Mark.lookup_entries_restrict hs, ← Mark.filter_map_of_id_eq Mark.id_restrict, h,
    Mark.filter_map_of_id_eq Mark.id_restrict, Mark.lookup_entries_restrict hs]

theorem Loader.timing?_replay_congr (source source' : String) (id : InstrId) :
    (replay source lines).trace.timing? stages id =
      (replay source' lines').trace.timing? stages id := by
  unfold Trace.timing?
  rw [find?_replay, find?_replay, named_congr h]
  by_cases hid : id ∈ named lines'
  · rw [if_pos hid, if_pos hid, Option.map_some, Option.map_some]
    exact congrArg some (Record.timing_eq_iff.mpr fun stage hs =>
      stage?_replay_congr (lookup_entries_congr h hs id))
  · rw [if_neg hid, if_neg hid]

end

/-! ## logs in which lines are exchanged -/

namespace Chronicle

/-- two lines, each with the counter before it, that are the same or say the same of all that is
compared -/
inductive Exchangeable (stages : StageSet) (n n' : Int) : String → String → Prop
  | same (line : String) : Exchangeable stages n n' line line
  | labels {line line' : String} {id : InstrId} {text text' : String}
    (h : Event.parse line = .ok (some (.label id text)))
    (h' : Event.parse line' = .ok (some (.label id text'))) :
    Exchangeable stages n n' line line'
  | entries {line line' : String} {id : InstrId} {relative relative' : Cycle}
    {stage stage' : String}
    (h : Event.parse line = .ok (some (.enter id relative stage)))
    (h' : Event.parse line' = .ok (some (.enter id relative' stage')))
    (hstage : ¬ stages.contains stage = true) (hstage' : ¬ stages.contains stage' = true)
    (hfits : Word.Fits (n + relative.toInt)) (hfits' : Word.Fits (n' + relative'.toInt)) :
    Exchangeable stages n n' line line'
  | silent {line line' : String} (h : ∀ event, Event.parse line ≠ .ok (some event))
    (h' : ∀ event, Event.parse line' ≠ .ok (some event)) : Exchangeable stages n n' line line'

/-- logs of one length in which the lines in each place are exchangeable -/
structure Exchanged (stages : StageSet) (n : Int) (lines lines' : List String) : Prop where
  length_eq : lines.length = lines'.length
  exchangeable : ∀ i line line', lines[i]? = some line → lines'[i]? = some line' →
    Exchangeable stages (counterFrom n (lines.take i)) (counterFrom n (lines'.take i)) line line'

section
variable {stages : StageSet} {n : Int}

theorem idle_of_silent {line : String} (h : ∀ event, Event.parse line ≠ .ok (some event))
    (n : Int) : Idle n line := by
  unfold Idle next mark?
  cases hparse : Event.parse line with
  | error _ => exact ⟨rfl, rfl⟩
  | ok event? =>
    cases event? with
    | none => exact ⟨rfl, rfl⟩
    | some event => exact absurd hparse (h event)

theorem Exchangeable.step_eq {line line' : String} (h : Exchangeable stages n n line line') :
    next n line = next n line' ∧
      (mark? n line).map (Mark.restrict stages) = (mark? n line').map (Mark.restrict stages) := by
  cases h with
  | same => exact ⟨rfl, rfl⟩
  | labels h h' =>
    unfold next mark?
    rw [h, h']
    exact ⟨rfl, rfl⟩
  | entries h h' hstage hstage' hfits hfits' =>
    rw [next_of_enter h, next_of_enter h', mark?_of_enter h hfits, mark?_of_enter h' hfits',
      Option.map_some, Option.map_some, Mark.restrict_entered_of_not_contains hstage,
      Mark.restrict_entered_of_not_contains hstage']
    exact ⟨rfl, rfl⟩
  | silent h h' =>
    obtain ⟨hnext, hmark⟩ := idle_of_silent h n
    obtain ⟨hnext', hmark'⟩ := idle_of_silent h' n
    rw [hnext, hnext', hmark, hmark']
    exact ⟨rfl, rfl⟩

section
variable {line line' : String} {rest rest' : List String}
  (h : Exchanged stages n (line :: rest) (line' :: rest'))
include h

theorem Exchanged.head : Exchangeable stages n n line line' := h.exchangeable 0 line line' rfl rfl

theorem Exchanged.tail : Exchanged stages (next n line) rest rest' := by
  refine ⟨Nat.succ.inj h.length_eq, fun i a a' ha ha' => ?_⟩
  have hnext : counterFrom (next n line) (rest'.take i) =
      counterFrom n ((line' :: rest').take (i + 1)) := by
    rw [h.head.step_eq.1]
    rfl
  rw [hnext]
  exact h.exchangeable (i + 1) a a' ha ha'

end

/-- the same remains of both logs -/
theorem map_restrict_marksFrom {lines lines' : List String} (h : Exchanged stages n lines lines') :
    (marksFrom n lines).map (Mark.restrict stages) =
      (marksFrom n lines').map (Mark.restrict stages) := by
  -- the counters of both logs are equal in every place, which the induction carries along
  induction lines generalizing n lines' with
  | nil =>
    rw [List.eq_nil_of_length_eq_zero h.length_eq.symm]
  | cons line rest ih =>
    cases lines' with
    | nil => exact absurd h.length_eq (Nat.succ_ne_zero _)
    | cons line' rest' =>
      obtain ⟨hnext, hmark⟩ := h.head.step_eq
      rw [marksFrom, marksFrom, List.map_append, List.map_append, ih h.tail, hnext,
        ← Option.toList_map, hmark, Option.toList_map]

end

end Chronicle

/-- **Lines that are not looked at never change the verdict.**  If two logs differ in labels, in
entries into stages that are not compared and in lines without an event only, a comparison finds no
instruction that differs, and nothing but labels. -/
theorem Trace.compare_replay_exchanged (source source' : String) {stages : StageSet}
    {lines lines' : List String} (h : Exchanged stages 0 lines lines') :
    let t := (Loader.replay source lines).trace
    let t' := (Loader.replay source' lines').trace
    let result := t.compare t' stages
    result.exitCode = 0 ∧ result.divergent = 0 ∧ result.checked = t.size ∧
    result.checked = t'.size ∧
    ∀ f ∈ result.findings, ∃ id left right, f = .labelMismatch id left right := by
  intro t t' result
  have hmarks : (marks lines).map (Mark.restrict stages) =
      (marks lines').map (Mark.restrict stages) := map_restrict_marksFrom h
  have hidentical : result.isIdentical = true :=
    isIdentical_compare_iff_timing?.mpr (Loader.timing?_replay_congr hmarks source source')
  have hchecked : result.checked = t.size := by
    rw [checked_compare, unionIds_eq_ids, length_ids]
    intro id hid
    rw [Loader.isSome_find?_replay] at hid ⊢
    rwa [named_congr hmarks]
  have hsize : t.size = t'.size := by
    rw [Loader.size_replay, Loader.size_replay, named_congr hmarks]
  exact ⟨Comparison.exitCode_eq_zero_iff.mpr hidentical,
    divergent_eq_zero_of_isIdentical hidentical, hchecked, hchecked.trans hsize,
    fun f => eq_labelMismatch_of_isIdentical hidentical⟩

/-- another label, another stage that is not compared, and a short line for an unknown code -/
theorem Trace.compare_replay_exchanged_mul :
    let lines := ["C\t9", "L\t7\t0\tmul", "S\t7\t1\tEX", "S\t8\t5\tDc", "Q\tx"]
    let lines' := ["C\t9", "L\t7\t0\tadd", "S\t7\t1\tEX", "S\t8\t-3\tMm", "S\t7"]
    let result := (Loader.replay "a" lines).trace.compare (Loader.replay "b" lines').trace .standard
    Exchanged .standard 0 lines lines' ∧ result.exitCode = 0 ∧ result.divergent = 0 ∧
    result.checked = 2 ∧ result.findings = [.labelMismatch 7 "mul" "add"] := by
  intro lines lines' result
  have hlabel : Event.parse "L\t7\t0\tmul" = .ok (some (.label 7 "mul")) := by decide +kernel
  have hlabel' : Event.parse "L\t7\t0\tadd" = .ok (some (.label 7 "add")) := by decide +kernel
  have hentry : Event.parse "S\t8\t5\tDc" = .ok (some (.enter 8 5 "Dc")) := by decide +kernel
  have hentry' : Event.parse "S\t8\t-3\tMm" = .ok (some (.enter 8 (-3) "Mm")) := by decide +kernel
  have hnone : Event.parse "Q\tx" = .ok none := by decide +kernel
  have hshort : Event.parse "S\t7" = .error (.missingField .enter 3 1) := by decide +kernel
  have h : Exchanged .standard 0 lines lines' := by
    refine ⟨rfl, fun i line line' hline hline' => ?_⟩
    match i with
    | 0 | 2 =>
      cases hline
      cases hline'
      exact .same _
    | 1 =>
      cases hline
      cases hline'
      exact .labels hlabel hlabel'
    | 3 =>
      cases hline
      cases hline'
      exact .entries hentry hentry' (by decide +kernel) (by decide +kernel) (by decide +kernel)
        (by decide +kernel)
    | 4 =>
      cases hline
      cases hline'
      refine .silent (fun event heq => ?_) (fun event heq => ?_)
      · rw [hnone] at heq
        cases heq
      · rw [hshort] at heq
        cases heq
    | i + 5 => cases hline
  obtain ⟨hcode, hdivergent, hchecked, -, -⟩ := compare_replay_exchanged "a" "b" h
  refine ⟨h, hcode, hdivergent, ?_, ?_⟩
  · rw [hchecked]
    decide +kernel
  · decide +kernel

end PipeTrace
