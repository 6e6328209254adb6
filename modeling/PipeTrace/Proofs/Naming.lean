import PipeTrace.Proofs.Findings
import PipeTrace.Proofs.Lines
import PipeTrace.Proofs.Reference
import PipeTrace.Proofs.Text.Trimming

/-!
# The stages that can be asked for

A stage gets into a trace as it stands between the tabs of an entry line, blanks included
(`Event.StageField`).  The texts that name the stages of a comparison are cut at commas and trimmed.
So a stage of a trace can be asked for (`StageSet.Nameable`) if and only if it is not empty, has no
comma and neither begins nor ends in a blank.  The last field of a line is never empty and never
ends in a blank, because lines are trimmed; a field with others after it may do both.
-/

set_option autoImplicit false

namespace PipeTrace

/-! ## texts that name stages -/

namespace StageSet

/-- some texts name the stage -/
def Nameable (stage : String) : Prop :=
  ∃ values s, ofArgs? values = some s ∧ s.contains stage = true

/-- what a stage must be like to be named: not empty, without comma and trimmed -/
structure Plain (stage : String) : Prop where
  ne_empty : stage ≠ ""
  no_comma : ',' ∉ stage.toList
  trimmed : Text.trim stage.toList = stage.toList

theorem mem_tokens {value stage : String} :
    stage ∈ tokens value ↔ stage ≠ "" ∧ ∃ piece ∈ value.toList.splitOn ',',
      Text.trim piece = stage.toList := by
  unfold tokens
  rw [List.mem_map]
  constructor
  · intro h
    obtain ⟨cs, hcs, rfl⟩ := h
    obtain ⟨hcs, hne⟩ := List.mem_filter.mp hcs
    obtain ⟨piece, hpiece, htrim⟩ := List.mem_map.mp hcs
    refine ⟨?_, piece, hpiece, by rw [htrim, String.toList_ofList]⟩
    intro hempty
    have hnil : cs = [] := by
      have h := congrArg String.toList hempty
      rwa [String.toList_ofList] at h
    exact of_decide_eq_true hne hnil
  · intro h
    obtain ⟨hne, piece, hpiece, htrim⟩ := h
    refine ⟨stage.toList, List.mem_filter.mpr ⟨List.mem_map.mpr ⟨piece, hpiece, htrim⟩, ?_⟩,
      String.ofList_toList⟩
    exact decide_eq_true fun hnil => hne (String.toList_inj.mp hnil)

theorem plain_of_mem_tokens {value stage : String} (h : stage ∈ tokens value) : Plain stage := by
  obtain ⟨hne, piece, hpiece, htrim⟩ := mem_tokens.mp h
  refine ⟨hne, ?_, ?_⟩
  · intro hcomma
    rw [← htrim] at hcomma
    exact Text.notMem_of_mem_splitOn value.toList hpiece (Text.mem_of_mem_trim hcomma)
  · rw [← htrim, Text.trim_trim]

/-- a plain stage names itself, and nothing else -/
theorem Plain.tokens_eq {stage : String} (h : Plain stage) : tokens stage = [stage] := by
  unfold tokens
  have hne : stage.toList ≠ [] := fun hnil => h.ne_empty (String.toList_inj.mp hnil)
  have hkeep : [stage.toList].filter (fun cs => decide (cs ≠ [])) = [stage.toList] :=
    List.filter_cons_of_pos (decide_eq_true hne)
  rw [List.splitOn_eq_singleton h.no_comma, List.map_singleton, h.trimmed, hkeep,
    List.map_singleton, String.ofList_toList]

theorem Plain.ofArgs?_eq {stage : String} (h : Plain stage) :
    ofArgs? [stage] = some (ofList [stage]) := by
  unfold ofArgs?
  rw [if_neg (List.cons_ne_nil _ _), List.flatMap_singleton, h.tokens_eq]
  rfl

theorem plain_of_contains {values : List String} {s : StageSet} {stage : String}
    (h : ofArgs? values = some s) (hmem : s.contains stage = true) : Plain stage := by
  rw [contains_iff_mem_toList] at hmem
  unfold ofArgs? at h
  split at h
  · -- no texts at all stand for the standard set
    cases h
    have hstandard : ∀ st ∈ ["IF", "WB", "RN", "EX", "PNR", "CO"], st ≠ "" ∧
        ',' ∉ st.toList ∧ Text.trim st.toList = st.toList := by decide
    obtain ⟨hne, hcomma, htrim⟩ := hstandard stage (mem_toList_ofList.mp hmem)
    exact ⟨hne, hcomma, htrim⟩
  · simp only at h
    split at h
    · cases h
    · cases h
      obtain ⟨value, -, hvalue⟩ := List.mem_flatMap.mp (mem_toList_ofList.mp hmem)
      exact plain_of_mem_tokens hvalue

/-- **The stages that texts can name are the plain ones**, and each of them is named by itself. -/
theorem nameable_iff_plain {stage : String} : Nameable stage ↔ Plain stage := by
  constructor
  · intro h
    obtain ⟨values, s, hs, hmem⟩ := h
    exact plain_of_contains hs hmem
  · intro h
    refine ⟨[stage], _, h.ofArgs?_eq, ?_⟩
    rw [contains_iff_mem_toList, mem_toList_ofList]
    exact List.mem_singleton_self stage

end StageSet

/-! ## the stages of a trace -/

namespace Event

/-- the stage stands, character by character, in the third field after the code of an entry line;
`rest` are the fields after it -/
def StageField (line stage : String) (rest : List (List Char)) : Prop :=
  ∃ id relative, (Text.trim line.toList).splitOn '\t' =
    ['S'] :: id :: relative :: stage.toList :: rest

/-- only fields of an entry decode to one, and the third of them is its stage -/
theorem decode_eq_enter {code : EventCode} {first : List Char} {rest : List (List Char)}
    {id : InstrId} {relative : Cycle} {stage : String}
    (h : decode code first rest = .ok (.enter id relative stage)) :
    code = .enter ∧ ∃ second more, rest = second :: stage.toList :: more := by
  unfold decode at h
  cases code with
  | advance => cases hread : IntField.cycleDelta.read first <;> rw [hread] at h <;> cases h
  | setCycle => cases hread : IntField.cycleValue.read first <;> rw [hread] at h <;> cases h
  | introduce => cases hread : IntField.instructionId.read first <;> rw [hread] at h <;> cases h
  | label => cases hread : IntField.instructionId.read first <;> rw [hread] at h <;> cases h
  | enter =>
    refine ⟨rfl, ?_⟩
    match rest with
    | [] | [_] => cases h
    | second :: third :: more =>
      cases hid : IntField.instructionId.read first with
      | error error =>
        simp only [hid] at h
        cases h
      | ok n =>
        cases hrelative : IntField.relativeCycle.read second with
        | error error =>
          simp only [hid, hrelative] at h
          cases h
        | ok delta =>
          simp only [hid, hrelative] at h
          cases h
          exact ⟨second, more, by rw [String.toList_ofList]⟩

theorem stageField_of_parse {line : String} {id : InstrId} {relative : Cycle} {stage : String}
    (h : parse line = .ok (some (.enter id relative stage))) :
    ∃ rest, StageField line stage rest := by
  unfold parse at h
  match hfields : (Text.trim line.toList).splitOn '\t' with
  | [] | [_] =>
    rw [hfields] at h
    cases h
  | field :: first :: args =>
    rw [hfields] at h
    unfold ofFields at h
    cases hcode : EventCode.ofField? field with
    | none =>
      simp only [hcode] at h
      cases h
    | some code =>
      simp only [hcode] at h
      cases hdecode : decode code first args with
      | error error =>
        rw [hdecode] at h
        cases h
      | ok event =>
        rw [hdecode] at h
        cases h
        obtain ⟨rfl, second, more, rfl⟩ := decode_eq_enter hdecode
        have hfield : field = ['S'] := EventCode.ofField?_eq_some_iff.mp hcode
        refine ⟨more, first, second, ?_⟩
        rw [hfields, hfield]

/-- the last field of a line is not empty and does not end in a blank -/
theorem StageField.of_last {line stage : String} (h : StageField line stage []) :
    stage ≠ "" ∧ Text.trimEnd stage.toList = stage.toList := by
  obtain ⟨id, relative, hfields⟩ := h
  obtain ⟨hne, htrim⟩ := Text.last_of_splitOn_trim Text.isBlank_tab (List.cons_ne_nil _ _)
    (show _ = [['S'], id, relative] ++ [stage.toList] from hfields)
  exact ⟨fun hempty => hne (congrArg String.toList hempty), htrim⟩

end Event

namespace Trace

/-- a stage that was recorded stands in an entry line of the log -/
theorem exists_stageField_of_replay {source : String} {lines : List String} {id : InstrId}
    {r : Record} {stage : String} (hr : (Loader.replay source lines).trace.find? id = some r)
    (hstage : (r.stage? stage).isSome = true) :
    ∃ line ∈ lines, ∃ rest, Event.StageField line stage rest := by
  obtain ⟨cycle, hcycle⟩ := Option.isSome_iff_exists.mp hstage
  have hlookup := Loader.stage?_replay source lines id stage
  rw [recordOf_eq hr, hcycle, Option.map_some] at hlookup
  obtain ⟨before, after, hentries, -⟩ := List.lookup_eq_some_iff.mp hlookup.symm
  have hentry : (stage, cycle.toInt) ∈ Chronicle.entries lines id := by
    rw [hentries]
    exact List.mem_append_right before List.mem_cons_self
  obtain ⟨line, hline, k, hmark⟩ :=
    Chronicle.exists_line_of_mem_marksFrom (Chronicle.mem_entries.mp hentry)
  obtain ⟨relative, hparse⟩ := Chronicle.parse_of_mark?_entered hmark
  exact ⟨line, hline, Event.stageField_of_parse hparse⟩

/-- a difference in a stage can be made visible if and only if the stage is plain -/
theorem exists_delta_iff_plain {l r : Trace} {id : InstrId} {a b : Record} {stage : String}
    (hl : l.find? id = some a) (hr : r.find? id = some b)
    (hne : a.stage? stage ≠ b.stage? stage) :
    (∃ values s label deltas, StageSet.ofArgs? values = some s ∧
      .stageTiming id label deltas ∈ (l.compare r s).findings ∧ ∃ d ∈ deltas, d.stage = stage) ↔
    StageSet.Plain stage := by
  constructor
  · intro h
    obtain ⟨values, s, label, deltas, hs, hfinding, d, hd, rfl⟩ := h
    rw [findings_compare, stageTiming_mem_findings_iff] at hfinding
    obtain ⟨a', b', -, -, -, rfl, -⟩ := hfinding
    exact StageSet.plain_of_contains hs (Record.mem_deltas.mp hd).1
  · intro h
    obtain ⟨values, s, hs, hmem⟩ := StageSet.nameable_iff_plain.mpr h
    have hd : { stage, left := a.stage? stage, right := b.stage? stage } ∈ a.deltas b s :=
      Record.mem_deltas.mpr ⟨hmem, rfl, rfl, hne⟩
    refine ⟨values, s, a.label, a.deltas b s, hs, ?_, _, hd, rfl⟩
    rw [findings_compare, stageTiming_mem_findings_iff]
    exact ⟨a, b, hl, hr, rfl, rfl, List.ne_nil_of_mem hd⟩

/-- **Where a recorded stage comes from, and whether it can be asked for.**  It stands in an entry
line as it is recorded.  If it has no comma, it is in the set that it names itself, or in any that
can be named, if and only if it is not empty and was trimmed in its line. -/
theorem stage_of_load {path : String} {content : Content} {t : Trace}
    (h : load path content = .ok t) {id : InstrId} {r : Record} {stage : String}
    (hr : t.find? id = some r) (hstage : (r.stage? stage).isSome = true)
    (hcomma : ',' ∉ stage.toList) :
    (∃ lines, content.Holds lines ∧ ∃ line ∈ lines, ∃ rest, Event.StageField line stage rest ∧
      (rest = [] → stage ≠ "" ∧ Text.trimEnd stage.toList = stage.toList)) ∧
    ((∃ s, StageSet.ofArgs? [stage] = some s ∧ s.contains stage = true) ↔
      stage ≠ "" ∧ Text.trim stage.toList = stage.toList) ∧
    (StageSet.Nameable stage ↔ stage ≠ "" ∧ Text.trim stage.toList = stage.toList) := by
  have hplain : StageSet.Plain stage ↔ stage ≠ "" ∧ Text.trim stage.toList = stage.toList :=
    ⟨fun hp => ⟨hp.ne_empty, hp.trimmed⟩, fun hp => ⟨hp.1, hcomma, hp.2⟩⟩
  refine ⟨?_, ?_, StageSet.nameable_iff_plain.trans hplain⟩
  · rcases content.holds_or_stopsAt with ⟨lines, hlines⟩ | ⟨number, cause, hstop⟩
    · rw [load_of_holds hlines] at h
      cases h
      obtain ⟨line, hline, rest, hfield⟩ := exists_stageField_of_replay hr hstage
      refine ⟨lines, hlines, line, hline, rest, hfield, ?_⟩
      intro hrest
      rw [hrest] at hfield
      exact hfield.of_last
    · rw [load_of_stopsAt hstop] at h
      cases h
  · rw [← hplain]
    constructor
    · intro hnamed
      obtain ⟨s, hs, hmem⟩ := hnamed
      exact StageSet.plain_of_contains hs hmem
    · intro hp
      refine ⟨_, hp.ofArgs?_eq, ?_⟩
      rw [StageSet.contains_iff_mem_toList, StageSet.mem_toList_ofList]
      exact List.mem_singleton_self stage

/-- a stage in the last field of its line, after blanks that belong to other fields -/
theorem stage_of_load_last_field :
    let content : Content := { bytes := Text.bytesOf " S\t1 \t 2\tIF \r\n" }
    let t := (Loader.replay "a" [" S\t1 \t 2\tIF "]).trace
    load "a" content = .ok t ∧ t.find? 1 = some (t.recordOf 1) ∧
      ((t.recordOf 1).stage? "IF").isSome = true ∧ ',' ∉ "IF".toList ∧
      ∃ s, StageSet.ofArgs? ["IF"] = some s ∧ s.contains "IF" = true := by
  intro content t
  have hholds : content.Holds [" S\t1 \t 2\tIF "] := ⟨rfl, by decide +kernel⟩
  have hload : load "a" content = .ok t := load_of_holds hholds "a"
  have hfind : t.find? 1 = some (t.recordOf 1) := find?_eq_some_recordOf (by decide +kernel)
  have hstage : ((t.recordOf 1).stage? "IF").isSome = true := by decide +kernel
  have hcomma : ',' ∉ "IF".toList := by decide
  obtain ⟨-, hnamed, -⟩ := stage_of_load hload hfind hstage hcomma
  exact ⟨hload, hfind, hstage, hcomma, hnamed.mpr ⟨by decide, by decide⟩⟩

/-- a blank before a stage is recorded with it, and then no texts name the stage, not even itself -/
theorem padded_stage_not_nameable :
    ∃ t r, load "a" { bytes := Text.bytesOf "S\t1\t0\t IF\tx\n" } = .ok t ∧
      t.find? 1 = some r ∧ r.stage? " IF" = some 0 ∧ ',' ∉ " IF".toList ∧
      ¬ (∃ s, StageSet.ofArgs? [" IF"] = some s ∧ s.contains " IF" = true) ∧
      ¬ StageSet.Nameable " IF" := by
  have hholds : Content.Holds { bytes := Text.bytesOf "S\t1\t0\t IF\tx\n" }
      ["S\t1\t0\t IF\tx"] := ⟨rfl, by decide +kernel⟩
  have hnot : ¬ StageSet.Nameable " IF" := by
    intro hnamed
    exact absurd (StageSet.nameable_iff_plain.mp hnamed).trimmed (by decide)
  refine ⟨_, _, load_of_holds hholds "a", find?_eq_some_recordOf (by decide +kernel),
    by decide +kernel, by decide, ?_, hnot⟩
  intro hnamed
  obtain ⟨s, hs, hmem⟩ := hnamed
  exact hnot ⟨_, s, hs, hmem⟩

end Trace

end PipeTrace
