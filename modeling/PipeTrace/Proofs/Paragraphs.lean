import PipeTrace.Proofs.Verdict
import PipeTrace.Report

/-!
# What a report shows

The report of a comparison is a list of lines: the lines of its paragraphs, each of them about one
instruction, and those of the summary.

* `Paragraph.lines`       the lines of a paragraph, written out as a reader of the report sees them;
* `Fragment.Spells`       fragments come to lines;
* `Trace.ParagraphsAt`    what there is to be read about one instruction of two traces;
* `Trace.Paragraphs`      the same about all instructions, in ascending order.

Which paragraphs there are is said without the findings of a comparison, by what the two traces have
and by the first instruction that differs (`Trace.DiffersFirst`).  The report decides on its block
by comparing ids, and that is enough: the block is written for this instruction if both traces have
it, and for no other (`Trace.comparison_shows_paragraphs`).
-/

set_option autoImplicit false

namespace PipeTrace

/-! ## lines and fragments -/

def linesText (lines : List String) : String := String.join (lines.map (· ++ "\n"))

theorem linesText_append (as bs : List String) :
    linesText (as ++ bs) = linesText as ++ linesText bs := by
  unfold linesText
  rw [List.map_append, String.join_append]

theorem linesText_singleton (line : String) : linesText [line] = line ++ "\n" := by
  unfold linesText
  rw [List.map_singleton, String.join_cons, String.join_nil, String.append_empty]

namespace Fragment

/-- the fragments are these lines -/
def Spells (color : Bool) (fs : List Fragment) (lines : List String) : Prop :=
  renderAll color fs = linesText lines

namespace Spells

variable {color : Bool}

theorem cast {fs : List Fragment} {as bs : List String} (h : Spells color fs as) (heq : as = bs) :
    Spells color fs bs := heq ▸ h

theorem nil : Spells color [] [] := rfl

theorem append {fs gs : List Fragment} {as bs : List String} (hf : Spells color fs as)
    (hg : Spells color gs bs) : Spells color (fs ++ gs) (as ++ bs) := by
  unfold Spells at hf hg ⊢
  rw [renderAll_append, linesText_append, hf, hg]

theorem line {fs : List Fragment} {text : String} (h : renderAll color fs = text) :
    Spells color (Fragment.line fs) [text] := by
  unfold Spells Fragment.line
  rw [renderAll_append, linesText_singleton, h]
  rfl

theorem plainLine (text : String) : Spells color (Fragment.plainLine text) [text] :=
  line String.append_empty

theorem flatMap {α : Type} {f : α → List Fragment} {g : α → List String} {as : List α}
    (h : ∀ a ∈ as, Spells color (f a) (g a)) : Spells color (as.flatMap f) (as.flatMap g) := by
  induction as with
  | nil => exact nil
  | cons a as ih =>
    have hrest := ih fun b hb => h b (List.mem_cons_of_mem a hb)
    rw [List.flatMap_cons, List.flatMap_cons]
    exact (h a List.mem_cons_self).append hrest

end Spells

end Fragment

/-! ## paragraphs -/

inductive Paragraph where
  /-- one of the traces lacks the instruction -/
  | missing (id : InstrId) (missingFrom : Side)
  /-- the traces label the instruction differently -/
  | labels (id : InstrId) (left right : String)
  /-- the block with the stages of an instruction -/
  | block (id : InstrId) (label : String) (rows : List StageDelta)

namespace Paragraph

/-- a piece of text between terminal codes, if there is colour -/
def painted (color : Bool) (codes text : String) : String :=
  if color then codes ++ text ++ "\x1b[0m" else text

def spaces (n : Nat) : String := String.ofList (List.replicate n ' ')

/-- a line of the table: a stage in 10 places, and on the right of 20 what each trace says of it -/
def tableLine (stage left right : String) : String :=
  stage ++ spaces (10 - stage.length) ++ " " ++ (spaces (20 - left.length) ++ left) ++ " " ++
    (spaces (20 - right.length) ++ right)

def shown : Option Cycle → String
  | some cycle => toString cycle
  | none => "N/A"

/-- a row of the block; its cycles differ, so it is always marked -/
def rowLine (color : Bool) (d : StageDelta) : String :=
  tableLine d.stage (shown d.left) (shown d.right) ++ painted color "\x1b[31m" " <-- DIFF"

def lines (color : Bool) (names : Names) : Paragraph → List String
  | .missing id .left => ["", s!"Instruction {id} missing in {names.left}"]
  | .missing id .right => ["", s!"Instruction {id} missing in {names.right}"]
  | .labels id left right =>
    ["", painted color "\x1b[33m" "Warning:" ++ s!" Instruction {id} has different labels:",
      s!"  {names.left}: {left}", s!"  {names.right}: {right}"]
  | .block id label rows =>
    ["",
      "======================================================================",
      painted color "\x1b[31m\x1b[1m" "FIRST DIFFERENCE FOUND",
      "======================================================================",
      s!"Instruction ID: {id}"] ++
    (if label = "" then [] else ["Instruction:    " ++ label]) ++
    ["",
      "Stage timing differences:",
      tableLine "Stage" names.left names.right,
      "----------------------------------------------------------------------"] ++
    rows.map (rowLine color) ++
    ["======================================================================",
      ""]

def isBlock : Paragraph → Bool
  | .block _ _ _ => true
  | _ => false

/-- the lines at the end of the report, with the numbers of instructions that were compared and that
differ, and the first that differs -/
def summaryLines (color : Bool) (checked divergent : Nat) (first : Option InstrId) : List String :=
  ["",
    painted color "\x1b[1m" "Summary:",
    s!"  Total instructions checked: {checked}",
    s!"  Instructions with differences: {divergent}",
    match first with
    | some id => s!"  First difference at instruction ID: {id}"
    | none => "  " ++ painted color "\x1b[32m" "No differences found!"]

end Paragraph

/-! ## the parts of a report -/

namespace Report

open Fragment Paragraph

variable (color : Bool) (names : Names) (id : InstrId)

theorem renderAll_styled (style : Style) (text : String) :
    renderAll color [.styled style text] = painted color style.codes text := String.append_empty

theorem cycleText_eq_shown (cycle : Option Cycle) : cycleText cycle = shown cycle := by
  cases cycle <;> rfl

theorem columns_eq_tableLine (stage left right : String) :
    columns stage left right = tableLine stage left right := by
  unfold columns tableLine Text.alignLeft Text.alignRight List.rightpad List.leftpad spaces
  simp only [String.ofList_append, String.ofList_toList, String.length_toList]

theorem doubleRule_eq : doubleRule =
    "======================================================================" := by
  decide +kernel

theorem singleRule_eq : singleRule =
    "----------------------------------------------------------------------" := by
  decide +kernel

theorem spells_missing (side : Side) :
    Spells color (missing (names.of side) id) ((Paragraph.missing id side).lines color names) := by
  cases side <;> exact (Spells.plainLine "").append (.plainLine _)

theorem spells_labelMismatch (left right : String) :
    Spells color (labelMismatch names id left right)
      ((Paragraph.labels id left right).lines color names) := by
  have hwarning : renderAll color
      [.styled .caution "Warning:", .plain s!" Instruction {id} has different labels:"] =
        painted color "\x1b[33m" "Warning:" ++ s!" Instruction {id} has different labels:" :=
    congrArg (painted color "\x1b[33m" "Warning:" ++ ·) String.append_empty
  exact (((Spells.plainLine "").append (.line hwarning)).append (.plainLine _)).append
    (.plainLine _)

theorem spells_row {d : StageDelta} (h : d.left ≠ d.right) :
    Spells color (row d) [rowLine color d] := by
  have hmarker : marker d = [.styled .marker " <-- DIFF"] := if_neg h
  unfold row rowLine
  rw [hmarker, columns_eq_tableLine, cycleText_eq_shown, cycleText_eq_shown]
  exact .line (congrArg _ (renderAll_styled color .marker _))

theorem spells_labelLine (label : String) : Spells color (labelLine label)
    (if label = "" then [] else ["Instruction:    " ++ label]) := by
  unfold labelLine
  split
  · exact .nil
  · exact .plainLine _

theorem spells_firstDifference (label : String) {deltas : List StageDelta}
    (h : ∀ d ∈ deltas, d.left ≠ d.right) :
    Spells color (firstDifference names id label deltas)
      ((Paragraph.block id label deltas).lines color names) := by
  have hrows : Spells color (deltas.flatMap row) (deltas.map (rowLine color)) := by
    rw [List.map_eq_flatMap]
    exact .flatMap fun d hd => spells_row color (h d hd)
  have hheadline : Spells color (line [.styled .headline "FIRST DIFFERENCE FOUND"])
      [painted color "\x1b[31m\x1b[1m" "FIRST DIFFERENCE FOUND"] :=
    .line (renderAll_styled color .headline _)
  have hhead := (((((Spells.plainLine "").append (.plainLine doubleRule)).append hheadline).append
    (.plainLine doubleRule)).append (.plainLine s!"Instruction ID: {id}")).append
    (spells_labelLine color label)
  have htable := (((hhead.append (.plainLine "")).append
    (.plainLine "Stage timing differences:")).append
    (.plainLine (columns "Stage" names.left names.right))).append (.plainLine singleRule)
  have hblock := ((htable.append hrows).append (.plainLine doubleRule)).append (.plainLine "")
  refine hblock.cast ?_
  unfold Paragraph.lines
  simp only [List.append_assoc, List.cons_append, List.nil_append, doubleRule_eq, singleRule_eq,
    columns_eq_tableLine]

theorem spells_summary (c : Comparison) :
    Spells color (summary c) (summaryLines color c.checked c.divergent c.firstDivergence) := by
  have hheading : Spells color (line [.styled .heading "Summary:"])
      [painted color "\x1b[1m" "Summary:"] := .line (renderAll_styled color .heading _)
  have hcounts := (((Spells.plainLine "").append hheading).append
    (.plainLine s!"  Total instructions checked: {c.checked}")).append
    (.plainLine s!"  Instructions with differences: {c.divergent}")
  unfold summary summaryLines
  cases c.firstDivergence with
  | some id => exact hcounts.append (.plainLine _)
  | none =>
    have hnone : Spells color (verdict none)
        ["  " ++ painted color "\x1b[32m" "No differences found!"] :=
      .line (congrArg _ (renderAll_styled color .success _))
    exact hcounts.append hnone

end Report

/-! ## the paragraph of a finding -/

/-- what is shown of a finding, if `first` is the first instruction that differs -/
def Finding.paragraphs (first : Option InstrId) : Finding → List Paragraph
  | .missing id side => [.missing id side]
  | .labelMismatch id left right => [.labels id left right]
  | .stageTiming id label deltas => if first = some id then [.block id label deltas] else []

theorem Report.spells_finding (color : Bool) (names : Names) (first : Option InstrId) {f : Finding}
    (h : ∀ id label deltas, f = .stageTiming id label deltas → ∀ d ∈ deltas, d.left ≠ d.right) :
    Fragment.Spells color (finding names first f)
      ((f.paragraphs first).flatMap (Paragraph.lines color names)) := by
  cases f with
  | missing id side =>
    show Fragment.Spells color _ (Paragraph.lines color names (.missing id side) ++ [])
    rw [List.append_nil]
    exact spells_missing color names id side
  | labelMismatch id left right =>
    show Fragment.Spells color _ (Paragraph.lines color names (.labels id left right) ++ [])
    rw [List.append_nil]
    exact spells_labelMismatch color names id left right
  | stageTiming id label deltas =>
    show Fragment.Spells color
      (if first = some id then firstDifference names id label deltas else [])
      ((if first = some id then [.block id label deltas] else []).flatMap
        (Paragraph.lines color names))
    by_cases hfirst : first = some id
    · rw [if_pos hfirst, if_pos hfirst, List.flatMap_singleton]
      exact spells_firstDifference color names id label (h id label deltas rfl)
    · rw [if_neg hfirst, if_neg hfirst]
      exact .nil

namespace Trace

/-- the instruction differs, and none with a smaller id does -/
def DiffersFirst (l r : Trace) (stages : StageSet) (id : InstrId) : Prop :=
  l.Differs r stages id ∧ ∀ j, l.Differs r stages j → id.toInt ≤ j.toInt

/-- what must be shown of one instruction -/
inductive ParagraphsAt (l r : Trace) (stages : StageSet) (id : InstrId) : List Paragraph → Prop
  | onlyRight {b : Record} (hl : l.find? id = none) (hr : r.find? id = some b) :
    ParagraphsAt l r stages id [.missing id .left]
  | onlyLeft {a : Record} (hl : l.find? id = some a) (hr : r.find? id = none) :
    ParagraphsAt l r stages id [.missing id .right]
  | first {a b : Record} {rows : List StageDelta} (hl : l.find? id = some a)
    (hr : r.find? id = some b) (hfirst : l.DiffersFirst r stages id)
    (hrows : a.DeltaList b stages rows) :
    ParagraphsAt l r stages id
      ((if a.label ≠ "" ∧ b.label ≠ "" ∧ a.label ≠ b.label then
          [.labels id a.label b.label] else []) ++ [.block id a.label rows])
  | notFirst {a b : Record} (hl : l.find? id = some a) (hr : r.find? id = some b)
    (hfirst : ¬ l.DiffersFirst r stages id) :
    ParagraphsAt l r stages id
      (if a.label ≠ "" ∧ b.label ≠ "" ∧ a.label ≠ b.label then
        [.labels id a.label b.label] else [])

/-- what must be shown of two traces: the paragraphs about their instructions, in ascending order -/
def Paragraphs (l r : Trace) (stages : StageSet) (ps : List Paragraph) : Prop :=
  ∃ (ids : List InstrId) (about : InstrId → List Paragraph),
    (ids.Pairwise fun i j => i.toInt < j.toInt) ∧
    (∀ id, id ∈ ids ↔ l.contains id = true ∨ r.contains id = true) ∧
    (∀ id ∈ ids, l.ParagraphsAt r stages id (about id)) ∧
    ps = ids.flatMap about

section
variable {l r : Trace} {stages : StageSet} {id : InstrId}

theorem firstDivergence_eq_some_iff :
    (l.compare r stages).firstDivergence = some id ↔ l.DiffersFirst r stages id :=
  (reports_compare l r stages).firstDivergence_eq_some_iff id

/-- the paragraphs for the findings about one instruction -/
def paragraphsAt (l r : Trace) (stages : StageSet) (id : InstrId) : List Paragraph :=
  (l.findingsAt r stages id).flatMap
    (Finding.paragraphs (l.compare r stages).firstDivergence)

theorem paragraphs_labelFindings (a b : Record) (first : Option InstrId) :
    (a.labelFindings b id).flatMap (Finding.paragraphs first) =
      if a.label ≠ "" ∧ b.label ≠ "" ∧ a.label ≠ b.label then [.labels id a.label b.label]
      else [] := by
  unfold Record.labelFindings
  split <;> rfl

theorem deltas_ne_nil_of_differs {a b : Record} (hl : l.find? id = some a)
    (hr : r.find? id = some b) (h : l.Differs r stages id) : a.deltas b stages ≠ [] := by
  rw [Record.deltas_ne_nil_iff]
  rcases h with h | ⟨a', b', stage, ha, hb, hmem, hne⟩
  · unfold contains at h
    rw [hl, hr] at h
    exact absurd rfl h
  · obtain rfl := Option.some_inj.mp (hl.symm.trans ha)
    obtain rfl := Option.some_inj.mp (hr.symm.trans hb)
    exact ⟨stage, hmem, hne⟩

theorem paragraphs_timingFindings_of_first {a b : Record} (hl : l.find? id = some a)
    (hr : r.find? id = some b) (hfirst : l.DiffersFirst r stages id) :
    (a.timingFindings b stages id).flatMap
        (Finding.paragraphs (l.compare r stages).firstDivergence) =
      [.block id a.label (a.deltas b stages)] := by
  have hdeltas := deltas_ne_nil_of_differs hl hr hfirst.1
  have hshown : Finding.paragraphs (some id) (.stageTiming id a.label (a.deltas b stages)) =
      [.block id a.label (a.deltas b stages)] := if_pos rfl
  unfold Record.timingFindings
  rw [if_neg hdeltas, firstDivergence_eq_some_iff.mpr hfirst, List.flatMap_singleton, hshown]

theorem paragraphs_timingFindings_of_not_first (a b : Record)
    (hfirst : ¬ l.DiffersFirst r stages id) :
    (a.timingFindings b stages id).flatMap
      (Finding.paragraphs (l.compare r stages).firstDivergence) = [] := by
  have hne : (l.compare r stages).firstDivergence ≠ some id :=
    mt firstDivergence_eq_some_iff.mp hfirst
  unfold Record.timingFindings
  split
  · rfl
  · rw [List.flatMap_singleton]
    exact if_neg hne

theorem paragraphsAt_paragraphsAt (hid : id ∈ l.unionIds r) :
    l.ParagraphsAt r stages id (l.paragraphsAt r stages id) := by
  unfold paragraphsAt
  cases hl : l.find? id with
  | none =>
    have hr : (r.find? id).isSome :=
      (mem_unionIds.mp hid).resolve_left (by rw [hl]; exact Bool.false_ne_true)
    obtain ⟨b, hr⟩ := Option.isSome_iff_exists.mp hr
    rw [findingsAt_of_left_eq_none hl]
    exact .onlyRight hl hr
  | some a =>
    cases hr : r.find? id with
    | none =>
      rw [findingsAt_of_right_eq_none hl hr]
      exact .onlyLeft hl hr
    | some b =>
      rw [findingsAt_of_eq_some hl hr, List.flatMap_append, paragraphs_labelFindings]
      by_cases hfirst : l.DiffersFirst r stages id
      · rw [paragraphs_timingFindings_of_first hl hr hfirst]
        exact .first hl hr hfirst (a.deltaList_deltas b stages)
      · rw [paragraphs_timingFindings_of_not_first a b hfirst, List.append_nil]
        exact .notFirst hl hr hfirst

/-- what must be shown of an instruction is determined -/
theorem ParagraphsAt.eq_paragraphsAt {ps : List Paragraph} (h : l.ParagraphsAt r stages id ps) :
    ps = l.paragraphsAt r stages id := by
  unfold paragraphsAt
  cases h with
  | onlyRight hl hr =>
    rw [findingsAt_of_left_eq_none hl]
    rfl
  | onlyLeft hl hr =>
    rw [findingsAt_of_right_eq_none hl hr]
    rfl
  | first hl hr hfirst hrows =>
    rw [findingsAt_of_eq_some hl hr, List.flatMap_append, paragraphs_labelFindings,
      paragraphs_timingFindings_of_first hl hr hfirst, hrows.eq_deltas]
  | notFirst hl hr hfirst =>
    rw [findingsAt_of_eq_some hl hr, List.flatMap_append, paragraphs_labelFindings,
      paragraphs_timingFindings_of_not_first _ _ hfirst, List.append_nil]

/-! ## the block -/

theorem DiffersFirst.unique {j : InstrId} (hi : l.DiffersFirst r stages id)
    (hj : l.DiffersFirst r stages j) : j = id := by
  have h1 := hi.2 j hj.1
  have h2 := hj.2 id hi.1
  exact Int64.toInt_inj.mp (by omega)

/-- the block about an instruction: its stages that differ, under the label of the left trace -/
def HasBlock (l r : Trace) (stages : StageSet) (id : InstrId) (label : String)
    (rows : List StageDelta) : Prop :=
  l.DiffersFirst r stages id ∧ ∃ a b, l.find? id = some a ∧ r.find? id = some b ∧
    label = a.label ∧ a.DeltaList b stages rows

theorem ParagraphsAt.block_mem_iff {ps : List Paragraph} (h : l.ParagraphsAt r stages id ps)
    {i : InstrId} {label : String} {rows : List StageDelta} :
    .block i label rows ∈ ps ↔ i = id ∧ l.HasBlock r stages id label rows := by
  unfold HasBlock
  cases h with
  | onlyRight hl hr => simp [hl]
  | onlyLeft hl hr => simp [hr]
  | @first a b ds hl hr hfirst hrows =>
    have hlabels : .block i label rows ∉
        (if a.label ≠ "" ∧ b.label ≠ "" ∧ a.label ≠ b.label then
          [Paragraph.labels id a.label b.label] else []) := by
      split <;> simp
    rw [List.mem_append, or_iff_right hlabels, List.mem_singleton]
    constructor
    · intro heq
      cases heq
      exact ⟨rfl, hfirst, a, b, hl, hr, rfl, hrows⟩
    · rintro ⟨rfl, -, a', b', hl', hr', rfl, hrows'⟩
      obtain rfl := Option.some_inj.mp (hl.symm.trans hl')
      obtain rfl := Option.some_inj.mp (hr.symm.trans hr')
      rw [hrows.eq_deltas, hrows'.eq_deltas]
  | notFirst hl hr hfirst =>
    refine iff_of_false ?_ fun hblock => hfirst hblock.2.1
    split <;> simp

theorem ParagraphsAt.countP_isBlock_le_one {ps : List Paragraph}
    (h : l.ParagraphsAt r stages id ps) : ps.countP Paragraph.isBlock ≤ 1 := by
  cases h with
  | onlyRight hl hr => exact Nat.zero_le 1
  | onlyLeft hl hr => exact Nat.zero_le 1
  | first hl hr hfirst hrows => split <;> exact Nat.le_refl 1
  | notFirst hl hr hfirst => split <;> exact Nat.zero_le 1

theorem countP_isBlock_le_one (l r : Trace) (stages : StageSet) :
    ((l.unionIds r).flatMap (l.paragraphsAt r stages)).countP Paragraph.isBlock ≤ 1 := by
  have hnone : ∀ j ∈ l.unionIds r, ¬ l.DiffersFirst r stages j →
      (l.paragraphsAt r stages j).filter Paragraph.isBlock = [] := by
    intro j hj hfirst
    rw [List.filter_eq_nil_iff]
    intro p hp hblock
    cases p with
    | missing _ _ => cases hblock
    | labels _ _ _ => cases hblock
    | block _ _ _ =>
      exact hfirst ((paragraphsAt_paragraphsAt hj).block_mem_iff.mp hp).2.1
  rw [List.countP_eq_length_filter, List.filter_flatMap]
  by_cases h : ∃ id ∈ l.unionIds r, l.DiffersFirst r stages id
  · obtain ⟨id, hid, hfirst⟩ := h
    rw [flatMap_eq_of_nodup (l.nodup_unionIds r) hid fun j hj hne =>
      hnone j hj fun hj' => hne (hfirst.unique hj'), ← List.countP_eq_length_filter]
    exact (paragraphsAt_paragraphsAt hid).countP_isBlock_le_one
  · rw [List.flatMap_eq_nil_iff.mpr fun j hj => hnone j hj fun hfirst => h ⟨j, hj, hfirst⟩]
    exact Nat.zero_le 1

end

/-! ## the whole report -/

theorem paragraphs_iff {l r : Trace} {stages : StageSet} {ps : List Paragraph} :
    l.Paragraphs r stages ps ↔ ps = (l.unionIds r).flatMap (l.paragraphsAt r stages) := by
  constructor
  · rintro ⟨ids, about, hord, hmem, habout, rfl⟩
    have hids : ids = l.unionIds r :=
      eq_of_pairwise_lt Int64.toInt hord (l.pairwise_toInt_unionIds r) fun id =>
        (hmem id).trans mem_unionIds.symm
    rw [hids] at habout ⊢
    exact List.flatMap_congr fun id hid => (habout id hid).eq_paragraphsAt
  · rintro rfl
    exact ⟨l.unionIds r, l.paragraphsAt r stages, l.pairwise_toInt_unionIds r,
      fun _ => mem_unionIds, fun _ hid => paragraphsAt_paragraphsAt hid, rfl⟩

/-- the cycles of every delta that is found differ -/
theorem left_ne_right_of_mem_findings {l r : Trace} {stages : StageSet} {id : InstrId}
    {label : String} {deltas : List StageDelta}
    (h : .stageTiming id label deltas ∈ l.findings r stages) :
    ∀ d ∈ deltas, d.left ≠ d.right := by
  obtain ⟨a, b, -, -, -, rfl, -⟩ := stageTiming_mem_findings_iff.mp h
  intro d hd
  exact (Record.mem_deltas.mp hd).2.2.2

theorem spells_findings (color : Bool) (names : Names) (l r : Trace) (stages : StageSet) :
    Fragment.Spells color
      ((l.findings r stages).flatMap
        (Report.finding names (l.compare r stages).firstDivergence))
      (((l.unionIds r).flatMap (l.paragraphsAt r stages)).flatMap
        (Paragraph.lines color names)) := by
  have hshown : ∀ f ∈ l.findings r stages,
      Fragment.Spells color (Report.finding names (l.compare r stages).firstDivergence f)
        ((f.paragraphs (l.compare r stages).firstDivergence).flatMap
          (Paragraph.lines color names)) := by
    intro f hf
    refine Report.spells_finding color names _ fun id label deltas heq => ?_
    rw [heq] at hf
    exact left_ne_right_of_mem_findings hf
  refine (Fragment.Spells.flatMap hshown).cast ?_
  unfold findings paragraphsAt
  simp only [List.flatMap_assoc]

/-- the lines of a comparison in terms of what differs -/
theorem spells_comparison (color : Bool) (names : Names) (l r : Trace) (stages : StageSet) :
    Fragment.Spells color (Report.comparison names (l.compare r stages))
      (((l.unionIds r).flatMap (l.paragraphsAt r stages)).flatMap (Paragraph.lines color names) ++
        Paragraph.summaryLines color {id | l.contains id = true ∨ r.contains id = true}.ncard
          {id | l.Differs r stages id}.ncard (l.compare r stages).firstDivergence) := by
  have hreports := reports_compare l r stages
  have hsummary := Report.spells_summary color (l.compare r stages)
  rw [hreports.checked, hreports.divergent] at hsummary
  unfold Report.comparison
  rw [findings_compare]
  exact (spells_findings color names l r stages).append hsummary

/-- **The report of a comparison shows what must be shown, and nothing else.**  Its text is that of
the paragraphs about the instructions and of the summary; there is at most one block, and it is
about the first instruction that differs, if both traces have it. -/
theorem comparison_shows_paragraphs (color : Bool) (names : Names) (l r : Trace)
    (stages : StageSet) :
    ∃ (ps : List Paragraph) (first : Option InstrId),
      (∀ qs, l.Paragraphs r stages qs ↔ qs = ps) ∧
      (∀ id, first = some id ↔ l.DiffersFirst r stages id) ∧
      (first = none ↔ (l.compare r stages).exitCode = 0) ∧
      Fragment.renderAll color (Report.comparison names (l.compare r stages)) =
        linesText (ps.flatMap (Paragraph.lines color names) ++
          Paragraph.summaryLines color {id | l.contains id = true ∨ r.contains id = true}.ncard
            {id | l.Differs r stages id}.ncard first) ∧
      ps.countP Paragraph.isBlock ≤ 1 ∧
      ∀ id label rows, .block id label rows ∈ ps ↔ l.HasBlock r stages id label rows := by
  have hreports := reports_compare l r stages
  refine ⟨(l.unionIds r).flatMap (l.paragraphsAt r stages),
    (l.compare r stages).firstDivergence, fun qs => paragraphs_iff,
    fun id => firstDivergence_eq_some_iff, ?_, spells_comparison color names l r stages,
    countP_isBlock_le_one l r stages, ?_⟩
  · rw [hreports.firstDivergence_eq_none_iff, hreports.exitCode_eq_zero_iff]
  · intro id label rows
    rw [List.mem_flatMap]
    constructor
    · rintro ⟨j, hj, hblock⟩
      obtain ⟨rfl, hhas⟩ := (paragraphsAt_paragraphsAt hj).block_mem_iff.mp hblock
      exact hhas
    · intro hhas
      have hid : id ∈ l.unionIds r := by
        obtain ⟨-, a, -, hl, -⟩ := hhas
        exact mem_unionIds.mpr (Or.inl (Option.isSome_of_eq_some hl))
      exact ⟨id, hid, (paragraphsAt_paragraphsAt hid).block_mem_iff.mpr ⟨rfl, hhas⟩⟩

end Trace

end PipeTrace
