import PipeTrace.Proofs.Numerals
import PipeTrace.Proofs.Paragraphs
import PipeTrace.Proofs.Text.Trimming

/-!
# Rows of the report

A row shows a stage and its two cycles in columns.  A cycle never overflows its column, because no
word needs more than 19 digits and a sign (`Report.length_cycleText_le`).  A stage may be longer
than its column, but then only the row gets longer, and the cycles keep their places at its end.

* `Report.shownCycle`   the cycle that a column shows;
* `Report.shownDelta`   the stage and the cycles that a marked row shows.

A stage that ends in no blank is told from the blanks that fill its column, so rows can be read back
(`Report.shownDelta_row`).
-/

set_option autoImplicit false

namespace PipeTrace

/-! ## the length of numbers -/

namespace Decimal

theorem length_toString_nat_le_iff {n width : Nat} (h : 0 < width) :
    (toString n).length ≤ width ↔ n < 10 ^ width := by
  rw [Nat.toString_eq_ofList_toDigits, String.length_ofList]
  exact Nat.length_toDigits_le_iff (by decide) h

/-- the sign takes one more character -/
theorem length_toString_int_le {n : Int} (width : Nat) (hwidth : 0 < width)
    (hn : n.natAbs < 10 ^ width) : (toString n).length ≤ width + 1 := by
  cases n with
  | ofNat m => exact Nat.le_succ_of_le ((length_toString_nat_le_iff hwidth).mpr hn)
  | negSucc m =>
    show ("-" ++ toString (m + 1)).length ≤ width + 1
    rw [String.length_append, Nat.add_comm]
    exact Nat.succ_le_succ ((length_toString_nat_le_iff hwidth).mpr hn)

theorem length_toString_word_le (w : Int64) : (toString w).length ≤ 20 := by
  have hfits := Word.fits_iff.mp (Word.fits_toInt w)
  exact length_toString_int_le 19 (by decide) (by omega)

end Decimal

namespace Report

open Fragment Text

/-! ## the columns of a row -/

theorem length_cycleText_le (cycle : Option Cycle) : (cycleText cycle).length ≤ 20 := by
  cases cycle with
  | none => decide
  | some w => exact Decimal.length_toString_word_le w

example : (cycleText (some Int64.minValue)).length = 20 := by decide +kernel

theorem length_columns (stage : String) (left right : Option Cycle) :
    (columns stage (cycleText left) (cycleText right)).length = max 10 stage.length + 42 := by
  unfold columns
  have hleft := length_cycleText_le left
  have hright := length_cycleText_le right
  have hspace : " ".length = 1 := rfl
  simp only [String.length_append, length_alignLeft, length_alignRight, hspace]
  rw [max_eq_left hleft, max_eq_left hright]

/-! ## reading a row back -/

/-- the cycle that a column shows, none if it shows no number -/
def shownCycle (column : List Char) : Option Cycle := (Decimal.readWord (trim column)).toOption

/-- the stage and the cycles that a marked row shows; the columns of the cycles are the last 42
characters before the marker -/
def shownDelta (row : String) : StageDelta :=
  let body := row.toList.take (row.length - 10)
  let width := body.length - 42
  { stage := String.ofList (trimEnd (body.take width))
    left := shownCycle ((body.drop width).take 21)
    right := shownCycle (body.drop (width + 21)) }

/-- a space and the column of a cycle -/
def cycleColumn (cycle : Option Cycle) : List Char :=
  ' ' :: (alignRight 20 (cycleText cycle)).toList

theorem length_cycleColumn (cycle : Option Cycle) : (cycleColumn cycle).length = 21 := by
  unfold cycleColumn
  rw [List.length_cons, String.length_toList, length_alignRight,
    max_eq_left (length_cycleText_le cycle)]

theorem allBlank_spaces (n : Nat) : AllBlank (List.replicate n ' ') := by
  intro c hc
  rw [List.eq_of_mem_replicate hc]
  decide

theorem trim_cycleColumn (cycle : Option Cycle) :
    trim (cycleColumn cycle) = (cycleText cycle).toList := by
  have hblank := allBlank_spaces (20 - (cycleText cycle).toList.length + 1)
  have hsolid : ∀ c ∈ (cycleText cycle).toList, isBlank c = false := by
    cases cycle with
    | none =>
      have hall : ("N/A".toList.all fun c => ! isBlank c) = true := by decide
      intro c hc
      simpa using List.all_eq_true.mp hall c hc
    | some w => exact fun c => (Decimal.denotes_toString w.toInt).not_isBlank
  have haround := trim_around hblank (cycleText cycle).toList allBlank_nil
  rw [List.append_nil, trim_eq_self_of_solid hsolid, List.replicate_succ] at haround
  unfold cycleColumn alignRight
  rw [String.toList_ofList]
  exact haround

theorem shownCycle_cycleColumn (cycle : Option Cycle) : shownCycle (cycleColumn cycle) = cycle := by
  unfold shownCycle
  rw [trim_cycleColumn]
  cases cycle with
  | none => decide +kernel
  | some w =>
    have hread : Decimal.readWord (toString w).toList = .ok w :=
      Decimal.readWord_eq_ok_iff.mpr (Decimal.denotes_toString w.toInt)
    show (Decimal.readWord (toString w).toList).toOption = some w
    rw [hread]
    rfl

theorem toList_columns (stage : String) (left right : Option Cycle) :
    (columns stage (cycleText left) (cycleText right)).toList =
      (alignLeft 10 stage).toList ++ (cycleColumn left ++ cycleColumn right) := by
  have hspace : " ".toList = [' '] := rfl
  unfold columns cycleColumn
  simp only [String.toList_append, hspace, List.append_assoc, List.cons_append,
    List.nil_append]

theorem trimEnd_alignLeft {stage : String} (h : trimEnd stage.toList = stage.toList)
    (width : Nat) : trimEnd (alignLeft width stage).toList = stage.toList := by
  unfold alignLeft
  rw [String.toList_ofList]
  exact (trimEnd_append_blanks stage.toList (allBlank_spaces _)).trans h

/-- the row of a delta whose cycles differ -/
theorem renderAll_row {d : StageDelta} (h : d.left ≠ d.right) :
    renderAll false (row d) =
      columns d.stage (cycleText d.left) (cycleText d.right) ++ " <-- DIFF" ++ "\n" := by
  have hspells : renderAll false (row d) = linesText [Paragraph.rowLine false d] :=
    spells_row false h
  rw [hspells, linesText_singleton, columns_eq_tableLine, cycleText_eq_shown, cycleText_eq_shown]
  rfl

/-- what stands before the marker of a row -/
theorem take_row {d : StageDelta} (h : d.left ≠ d.right) :
    (renderAll false (row d)).toList.take ((renderAll false (row d)).length - 10) =
      (alignLeft 10 d.stage).toList ++ (cycleColumn d.left ++ cycleColumn d.right) := by
  have hmarker : (" <-- DIFF" ++ "\n").length = 10 := by decide
  rw [renderAll_row h, String.append_assoc, ← toList_columns, String.toList_append,
    String.length_append, hmarker]
  exact List.take_left' (String.length_toList.trans (Nat.add_sub_cancel _ 10).symm)

/-- **A row shows its delta.** -/
theorem shownDelta_row {d : StageDelta} (h : d.left ≠ d.right)
    (hstage : trimEnd d.stage.toList = d.stage.toList) :
    shownDelta (renderAll false (row d)) = d := by
  have hleft := length_cycleColumn d.left
  have hright := length_cycleColumn d.right
  have hwidth : ((alignLeft 10 d.stage).toList ++
      (cycleColumn d.left ++ cycleColumn d.right)).length - 42 =
        (alignLeft 10 d.stage).toList.length := by
    rw [List.length_append, List.length_append, hleft, hright]
    exact Nat.add_sub_cancel _ 42
  unfold shownDelta
  simp only [take_row h, hwidth]
  rw [← List.drop_drop, List.take_left, List.drop_left, List.take_left' hleft,
    List.drop_left' hleft, shownCycle_cycleColumn, shownCycle_cycleColumn,
    trimEnd_alignLeft hstage, String.ofList_toList]

/-- **Rows stay aligned and lose nothing.**  Every cycle fits its column.  A row with two different
cycles is, before its marker, as long as the stage or its column and 42 characters more.  If the
stage ends in no blank, the stage and both cycles can be read from the row, so different deltas have
different rows. -/
theorem rows_aligned_and_lossless :
    (∀ cycle, (cycleText cycle).length ≤ 20) ∧
    (∀ d : StageDelta, d.left ≠ d.right → ∃ body,
      renderAll false (row d) = body ++ " <-- DIFF" ++ "\n" ∧
      body.length = max 10 d.stage.length + 42) ∧
    (∀ d : StageDelta, d.left ≠ d.right → trimEnd d.stage.toList = d.stage.toList →
      shownDelta (renderAll false (row d)) = d) ∧
    ∀ d e : StageDelta, d.left ≠ d.right → e.left ≠ e.right →
      trimEnd d.stage.toList = d.stage.toList → trimEnd e.stage.toList = e.stage.toList →
      renderAll false (row d) = renderAll false (row e) → d = e := by
  refine ⟨length_cycleText_le, fun d h => ⟨_, renderAll_row h, length_columns _ _ _⟩,
    fun d => shownDelta_row, fun d e hd he hdstage hestage hrow => ?_⟩
  rw [← shownDelta_row hd hdstage, hrow, shownDelta_row he hestage]

/-- a stage longer than its column that ends like a row, the least word, and a cycle that lacks -/
theorem rows_aligned_and_lossless_of_least :
    let d : StageDelta := ⟨"EX                  N/A", some Int64.minValue, none⟩
    let e : StageDelta := ⟨"", none, some 0⟩
    d.left ≠ d.right ∧ trimEnd d.stage.toList = d.stage.toList ∧
    shownDelta (renderAll false (row d)) = d ∧ (cycleText d.left).length = 20 ∧
    renderAll false (row d) ≠ renderAll false (row e) := by
  intro d e
  have hd : d.left ≠ d.right := nofun
  have he : e.left ≠ e.right := nofun
  have hdstage : trimEnd d.stage.toList = d.stage.toList := by decide +kernel
  have hestage : trimEnd e.stage.toList = e.stage.toList := rfl
  refine ⟨hd, hdstage, rows_aligned_and_lossless.2.2.1 d hd hdstage, by decide +kernel, ?_⟩
  intro hrow
  have heq : d = e := rows_aligned_and_lossless.2.2.2 d e hd he hdstage hestage hrow
  have hright : none = some (0 : Cycle) := congrArg StageDelta.right heq
  cases hright

end Report

end PipeTrace
