import PipeTrace.Proofs.Grammar
import PipeTrace.Proofs.LineEndings
import PipeTrace.Proofs.Naming
import PipeTrace.Proofs.Text.Lacks

/-!
# The texts of a trace

Besides numbers, labels and stages are all that is shown of a trace.  Both are cut out of the lines
of a file, which hold no newline (`Content.Holds.oneLine`).  A stage stands between tabs, and in a
label tabs have become spaces; a label that is not empty is the end of its line, which is trimmed.
So these texts fit into a table and into a line (`Trace.Tidy`).
-/

set_option autoImplicit false

namespace PipeTrace

/-! ## the lines of a file -/

theorem mem_of_mem_dropReturn {raw : List UInt8} {b : UInt8} (h : b ∈ dropReturn raw) :
    b ∈ raw := by
  unfold dropReturn at h
  split at h
  · exact List.mem_of_mem_dropLast h
  · exact h

namespace Content

variable {c : Content}

theorem newline_notMem_of_mem_rawLines {raw : List UInt8} (h : raw ∈ c.rawLines) :
    newline ∉ raw := by
  have hended : ∀ raw ∈ c.endedLines, newline ∉ raw := by
    intro raw hraw
    obtain ⟨piece, hpiece, rfl⟩ := List.mem_map.mp hraw
    have hnot := Text.notMem_of_mem_splitOn c.bytes (List.mem_of_mem_dropLast hpiece)
    exact mt mem_of_mem_dropReturn hnot
  have hremainder : newline ∉ c.remainder :=
    Text.notMem_of_mem_splitOn c.bytes (List.getLast_mem _)
  unfold rawLines at h
  split at h
  · exact hended raw h
  · rcases List.mem_append.mp h with h | h
    · exact hended raw h
    · rw [List.mem_singleton.mp h]
      exact hremainder

theorem Holds.oneLine {lines : List String} (h : c.Holds lines) :
    ∀ line ∈ lines, Text.OneLine line := by
  intro line hline
  have hraw : Text.bytesOf line ∈ c.rawLines := by
    rw [h.2]
    exact List.mem_map_of_mem hline
  exact mt Text.newline_mem_bytesOf_iff.mpr (newline_notMem_of_mem_rawLines hraw)

end Content

/-! ## labels -/

namespace Event

variable {line text : String} {id : InstrId}

/-- a label is the part of the trimmed line after its third tab, with spaces for tabs -/
theorem toList_of_parse_eq_label (h : parse line = .ok (some (.label id text))) :
    text.toList = (Text.afterSep '\t' 3 (Text.trim line.toList)).map Text.untab := by
  cases parse_eq_iff.mp h with
  | label hfields hid => exact String.toList_ofList

theorem tab_notMem_label (h : parse line = .ok (some (.label id text))) : '\t' ∉ text.toList := by
  rw [toList_of_parse_eq_label h, List.mem_map]
  rintro ⟨c, -, hc⟩
  exact Text.untab_ne_tab c hc

theorem oneLine_label (h : parse line = .ok (some (.label id text))) (hline : Text.OneLine line) :
    Text.OneLine text := by
  unfold Text.OneLine Text.Lacks
  rw [toList_of_parse_eq_label h, List.mem_map]
  rintro ⟨c, hc, hnewline⟩
  have hmem : c ∈ line.toList :=
    Text.mem_of_mem_trim ((Text.afterSep_isSuffix '\t' 3 _).subset hc)
  unfold Text.untab at hnewline
  split at hnewline
  · cases hnewline
  · rw [hnewline] at hmem
    exact hline hmem

/-- a label ends as its line does, and lines are trimmed -/
theorem getLast?_label (h : parse line = .ok (some (.label id text))) {c : Char}
    (hc : text.toList.getLast? = some c) : Text.isBlank c = false := by
  rw [toList_of_parse_eq_label h, List.getLast?_map, Option.map_eq_some_iff] at hc
  obtain ⟨d, hd, rfl⟩ := hc
  obtain ⟨before, hbefore⟩ := Text.afterSep_isSuffix '\t' 3 (Text.trim line.toList)
  have hlast : (Text.trim line.toList).getLast? = some d := by
    rw [← hbefore, List.getLast?_append, hd, Option.some_or]
  have hsolid : Text.isBlank d = false :=
    Text.trimEnd_eq_self_iff.mp (Text.trimEnd_trim line.toList) d hlast
  have htab : d ≠ '\t' := by
    rintro rfl
    exact Bool.noConfusion (hsolid.symm.trans Text.isBlank_tab)
  rwa [Text.untab_of_ne htab]

/-! ## stages -/

variable {stage : String} {rest : List (List Char)}

theorem StageField.mem_splitOn (h : StageField line stage rest) :
    stage.toList ∈ (Text.trim line.toList).splitOn '\t' := by
  obtain ⟨id, relative, hfields⟩ := h
  rw [hfields]
  simp

theorem StageField.tab_notMem (h : StageField line stage rest) : '\t' ∉ stage.toList :=
  Text.notMem_of_mem_splitOn _ h.mem_splitOn

theorem StageField.oneLine (h : StageField line stage rest) (hline : Text.OneLine line) :
    Text.OneLine stage := fun hnewline =>
  hline (Text.mem_of_mem_trim (Text.subset_of_mem_splitOn _ h.mem_splitOn hnewline))

end Event

/-! ## traces -/

namespace Trace

/-- a label that is not empty was given by a line of the log -/
theorem exists_label_of_replay {source : String} {lines : List String} {id : InstrId} {r : Record}
    (hr : (Loader.replay source lines).trace.find? id = some r) (hlabel : r.label ≠ "") :
    ∃ line ∈ lines, Event.parse line = .ok (some (.label id r.label)) := by
  have hreplay := Loader.label_replay source lines id
  rw [recordOf_eq hr] at hreplay
  cases hlast : (Chronicle.labels lines id).getLast? with
  | none =>
    rw [hlast] at hreplay
    exact absurd hreplay hlabel
  | some text =>
    rw [hlast, Option.getD_some] at hreplay
    rw [hreplay]
    have hmark := Chronicle.mem_labels.mp (List.mem_of_getLast? hlast)
    obtain ⟨line, hline, k, hk⟩ := Chronicle.exists_line_of_mem_marksFrom hmark
    exact ⟨line, hline, Chronicle.parse_of_mark?_labelled hk⟩

/-- the texts of a trace fit into a line and between tabs, and its labels end in no blank -/
structure Tidy (t : Trace) : Prop where
  label : ∀ id r, t.find? id = some r → '\t' ∉ r.label.toList ∧ Text.OneLine r.label
  label_end : ∀ id r, t.find? id = some r → ∀ c, r.label.toList.getLast? = some c →
    Text.isBlank c = false
  stage : ∀ id r stage, t.find? id = some r → (r.stage? stage).isSome = true →
    '\t' ∉ stage.toList ∧ Text.OneLine stage

theorem tidy_replay (source : String) {lines : List String}
    (h : ∀ line ∈ lines, Text.OneLine line) : (Loader.replay source lines).trace.Tidy where
  label id r hr := by
    by_cases hlabel : r.label = ""
    · rw [hlabel]
      exact ⟨by decide, by decide⟩
    · obtain ⟨line, hline, hparse⟩ := exists_label_of_replay hr hlabel
      exact ⟨Event.tab_notMem_label hparse, Event.oneLine_label hparse (h line hline)⟩
  label_end id r hr c hc := by
    have hlabel : r.label ≠ "" := by
      intro hempty
      rw [hempty] at hc
      cases hc
    obtain ⟨line, -, hparse⟩ := exists_label_of_replay hr hlabel
    exact Event.getLast?_label hparse hc
  stage id r stage hr hstage := by
    obtain ⟨line, hline, rest, hfield⟩ := exists_stageField_of_replay hr hstage
    exact ⟨hfield.tab_notMem, hfield.oneLine (h line hline)⟩

theorem tidy_of_load {path : String} {content : Content} {t : Trace}
    (h : load path content = .ok t) : t.Tidy := by
  obtain ⟨lines, hlines, rfl⟩ := exists_holds_of_load h
  exact tidy_replay path hlines.oneLine

end Trace

end PipeTrace
