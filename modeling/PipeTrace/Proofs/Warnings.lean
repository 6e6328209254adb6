import Mathlib.Data.List.Basic
import PipeTrace.Proofs.Replay

/-!
# The warnings about a log

A line is rejected if it cannot be read, or if it moves the counter, or enters a stage, at a cycle
out of range (`Chronicle.Rejected`).  That depends on the counter as the lines before it leave it,
rejected ones among them.  After a log was replayed there is one warning for each line that was
rejected, in the order of the lines, and it says truly what was rejected and why
(`Loader.warns_of_rejected`).
-/

set_option autoImplicit false

namespace PipeTrace

namespace Chronicle

/-- the line is rejected at the counter `base`, for the reason that the error names -/
inductive Rejected (base : Cycle) (line : String) : LineError → Prop
  | malformed {error : LineError} (hparse : Event.parse line = .error error) :
    Rejected base line error
  | advance {delta : Cycle} (hparse : Event.parse line = .ok (some (.advance delta)))
    (hout : ¬ Word.Fits (base.toInt + delta.toInt)) :
    Rejected base line (.cycleOverflow base delta)
  | enter {id : InstrId} {relative : Cycle} {stage : String}
    (hparse : Event.parse line = .ok (some (.enter id relative stage)))
    (hout : ¬ Word.Fits (base.toInt + relative.toInt)) :
    Rejected base line (.cycleOverflow base relative)

theorem rejected_iff_refusal? {base : Cycle} {line : String} {error : LineError} :
    Rejected base line error ↔ refusal? base.toInt line = some error := by
  constructor
  · intro h
    cases h with
    | malformed hparse =>
      unfold refusal?
      rw [hparse]
    | advance hparse hout => rw [refusal?_of_advance hparse hout, Int64.ofInt_toInt]
    | enter hparse hout => rw [refusal?_of_enter hparse hout, Int64.ofInt_toInt]
  · intro h
    unfold refusal? at h
    split at h
    · cases h
      exact .malformed ‹_›
    · split at h
      · cases h
      · cases h
        rw [Int64.ofInt_toInt]
        exact .advance ‹_› ‹_›
    · split at h
      · cases h
      · cases h
        rw [Int64.ofInt_toInt]
        exact .enter ‹_› ‹_›
    · cases h

theorem pairwise_line_refusalsFrom (n : Int) (k : Nat) (lines : List String) :
    (refusalsFrom n k lines).Pairwise fun v w => v.line < w.line := by
  induction lines generalizing n k with
  | nil => exact .nil
  | cons line rest ih =>
    rw [refusalsFrom, List.pairwise_append]
    refine ⟨?_, ih _ _, ?_⟩
    · cases refusal? n line with
      | none => exact .nil
      | some error => exact List.pairwise_singleton _ _
    · intro v hv w hw
      obtain ⟨error, -, rfl⟩ := List.mem_map.mp hv
      exact (line_of_mem_refusalsFrom hw).1

end Chronicle

open Chronicle

namespace Loader

/-- the warnings with the number of a line are those that give its text and why it is rejected -/
theorem mem_warnings_replay_iff (source : String) {lines : List String} {i : Nat}
    (hi : i < lines.length) (text : String) (error : LineError) :
    { line := i + 1, text, error } ∈ (replay source lines).trace.warnings.toList ↔
      text = lines[i] ∧ Rejected (replay source (lines.take i)).cycle lines[i] error := by
  rw [warnings_replay, mem_refusalsFrom_iff, rejected_iff_refusal?, toInt_cycle_replay]
  constructor
  · rintro ⟨j, hline, htext, hrefusal⟩
    obtain rfl : j = i := by
      have hnumber : i + 1 = 0 + j + 1 := hline
      omega
    obtain rfl : lines[j] = text :=
      Option.some_inj.mp ((List.getElem?_eq_getElem hi).symm.trans htext)
    exact ⟨rfl, hrefusal⟩
  · rintro ⟨rfl, hrefusal⟩
    refine ⟨i, ?_, List.getElem?_eq_getElem hi, hrefusal⟩
    show i + 1 = 0 + i + 1
    rw [Nat.zero_add]

/-- **Every rejected line is reported once, and truly.**  All lines are counted.  The warnings are in
the order of the lines, so there is at most one about each line; there is one if and only if the line
is rejected at the counter before it, and it bears the number of the line, its text and the reason. -/
theorem warns_of_rejected (source : String) (lines : List String) :
    let t := (replay source lines).trace
    t.lines = lines.length ∧
    (t.warnings.toList.Pairwise fun v w => v.line < w.line) ∧
    (∀ w ∈ t.warnings.toList, 1 ≤ w.line ∧ w.line ≤ t.lines) ∧
    ∀ i, ∀ hi : i < lines.length,
      ((∃ w ∈ t.warnings.toList, w.line = i + 1) ↔
        ∃ error, Rejected (replay source (lines.take i)).cycle lines[i] error) ∧
      ∀ w ∈ t.warnings.toList, w.line = i + 1 →
        w.text = lines[i] ∧ Rejected (replay source (lines.take i)).cycle lines[i] w.error := by
  intro t
  have hwarnings : t.warnings.toList = refusalsFrom 0 0 lines := warnings_replay source lines
  refine ⟨lines_replay source lines, ?_, fun w hw => ?_, fun i hi => ?_⟩
  · rw [hwarnings]
    exact pairwise_line_refusalsFrom 0 0 lines
  · rw [hwarnings] at hw
    have hline := line_of_mem_refusalsFrom hw
    rw [show t.lines = lines.length from lines_replay source lines]
    omega
  · have hmem := mem_warnings_replay_iff source hi
    have htrue : ∀ w ∈ t.warnings.toList, w.line = i + 1 →
        w.text = lines[i] ∧ Rejected (replay source (lines.take i)).cycle lines[i] w.error := by
      intro w hw hline
      obtain ⟨number, text, error⟩ := w
      obtain rfl : number = i + 1 := hline
      exact (hmem text error).mp hw
    refine ⟨?_, htrue⟩
    constructor
    · rintro ⟨w, hw, hline⟩
      exact ⟨w.error, (htrue w hw hline).2⟩
    · rintro ⟨error, hrejected⟩
      exact ⟨_, (hmem lines[i] error).mpr ⟨rfl, hrejected⟩, rfl⟩

/-- an advance out of range and a short line leave the counter where it is, so an entry after them is
out of range as well, and its warning names that counter -/
theorem warns_of_rejected_overflow :
    let lines := ["C=\t9223372036854775807", "C\t1", "S\t1", "S\t1\t5\tEX", "C\t-1"]
    let t := (replay "a" lines).trace
    let base := (replay "a" (lines.take 3)).cycle
    3 < lines.length ∧ base = 9223372036854775807 ∧
    Rejected base "S\t1\t5\tEX" (.cycleOverflow base 5) ∧
    (∃ w ∈ t.warnings.toList, w.line = 4) ∧
    t.warnings.toList =
      [{ line := 2, text := "C\t1", error := .cycleOverflow base 1 },
        { line := 3, text := "S\t1", error := .missingField .enter 3 1 },
        { line := 4, text := "S\t1\t5\tEX", error := .cycleOverflow base 5 }] := by
  intro lines t base
  have hlen : 3 < lines.length := by decide
  have hbase : base = 9223372036854775807 := by decide +kernel
  have hparse : Event.parse "S\t1\t5\tEX" = .ok (some (.enter 1 5 "EX")) := by decide +kernel
  have hout : ¬ Word.Fits (base.toInt + (5 : Cycle).toInt) := by
    rw [hbase]
    decide
  have hrejected : Rejected base "S\t1\t5\tEX" (.cycleOverflow base 5) := .enter hparse hout
  obtain ⟨-, -, -, hwarns⟩ := warns_of_rejected "a" lines
  refine ⟨hlen, hbase, hrejected, (hwarns 3 hlen).1.mpr ⟨_, hrejected⟩, ?_⟩
  rw [hbase]
  decide +kernel

end Loader

end PipeTrace
