import PipeTrace.Proofs.Paragraphs
import PipeTrace.Proofs.Tidy

/-!
# The layout of a report

How many lines a report has, and that the texts it quotes add none to them.

* `Fragment.Takes`    fragments come to a number of lines, and hold a control character besides
                      newlines only if it is quoted;
* `Finding.height`    the lines about a finding, by its kind and by the first difference;
* `Finding.texts`     the texts that a finding quotes.

The own words of a report have no control characters.  So what is true of the newline, which ends
the lines, and of others, which do not occur, is said once for any control character that the quoted
texts lack.

The texts of findings are those of the traces: a label is kept as it is, and a stage is named by the
set, but it differs only if one of the traces recorded it.  So they are of one line if the traces
were loaded from files (`Trace.tidy_of_load`), whatever is in the files.
-/

set_option autoImplicit false

namespace PipeTrace

/-! ## lines and fragments -/

namespace Fragment

/-- the text of the fragment, without colour -/
def text : Fragment → String
  | .plain text => text
  | .styled _ text => text

theorem newlines_render (color : Bool) (f : Fragment) :
    Text.newlines (f.render color) = Text.newlines f.text := by
  cases f with
  | plain text => rfl
  | styled style text =>
    cases color with
    | false => rfl
    | true =>
      have hcodes : Text.newlines style.codes = 0 := by cases style <;> decide
      have hreset : Text.newlines Style.reset = 0 := by decide
      show Text.newlines (style.codes ++ text ++ Style.reset) = Text.newlines text
      rw [Text.newlines_append, Text.newlines_append, hcodes, hreset]
      omega

/-- colour brings in no lines -/
theorem newlines_renderAll (color : Bool) (fs : List Fragment) :
    Text.newlines (renderAll color fs) = Text.newlines (renderAll false fs) := by
  induction fs with
  | nil => rfl
  | cons f fs ih =>
    rw [renderAll, renderAll, Text.newlines_append, Text.newlines_append, ih, newlines_render,
      newlines_render]

theorem lacks_renderAll_iff {c : Char} {fs : List Fragment} :
    Text.Lacks c (renderAll false fs) ↔ ∀ f ∈ fs, Text.Lacks c f.text := by
  induction fs with
  | nil => exact iff_of_true List.not_mem_nil nofun
  | cons f fs ih =>
    have hrender : f.render false = f.text := by cases f <;> rfl
    rw [renderAll, Text.lacks_append, ih, hrender, List.forall_mem_cons]

/-- without colour the fragments come to this number of lines; the character stands at their ends if
it is the newline, and nowhere else -/
def Takes (c : Char) (fs : List Fragment) (n : Nat) : Prop :=
  (renderAll false fs).toList.count c = if c = '\n' then n else 0

namespace Takes

variable {c : Char}

theorem cast {fs : List Fragment} {m n : Nat} (h : Takes c fs m) (heq : m = n) : Takes c fs n :=
  heq ▸ h

theorem of_lacks {fs : List Fragment} (h : ∀ f ∈ fs, Text.Lacks c f.text) : Takes c fs 0 :=
  (List.count_eq_zero.mpr (lacks_renderAll_iff.mpr h)).trans (ite_self 0).symm

theorem nil : Takes c [] 0 := of_lacks nofun

theorem append {fs gs : List Fragment} {m n : Nat} (hf : Takes c fs m) (hg : Takes c gs n) :
    Takes c (fs ++ gs) (m + n) := by
  unfold Takes at hf hg ⊢
  rw [renderAll_append, String.toList_append, List.count_append, hf, hg]
  split <;> rfl

theorem newline : Takes c [.plain "\n"] 1 := by
  unfold Takes
  by_cases h : c = '\n'
  · rw [h]
    rfl
  · rw [if_neg h, List.count_eq_zero]
    exact fun hmem => h (List.mem_singleton.mp hmem)

theorem line {fs : List Fragment} (h : ∀ f ∈ fs, Text.Lacks c f.text) :
    Takes c (Fragment.line fs) 1 :=
  (of_lacks h).append newline

theorem single {f : Fragment} (h : Text.Lacks c f.text) : Takes c (Fragment.line [f]) 1 :=
  line (List.forall_mem_singleton.mpr h)

theorem pair {f g : Fragment} (hf : Text.Lacks c f.text) (hg : Text.Lacks c g.text) :
    Takes c (Fragment.line [f, g]) 1 :=
  line (List.forall_mem_cons.mpr ⟨hf, List.forall_mem_singleton.mpr hg⟩)

theorem plainLine {text : String} (h : Text.Lacks c text) : Takes c (Fragment.plainLine text) 1 :=
  single h

theorem flatMap {α : Type} {f : α → List Fragment} {height : α → Nat} {as : List α}
    (h : ∀ a ∈ as, Takes c (f a) (height a)) : Takes c (as.flatMap f) (as.map height).sum := by
  induction as with
  | nil => exact nil
  | cons a as ih =>
    have hrest := ih fun b hb => h b (List.mem_cons_of_mem a hb)
    rw [List.flatMap_cons, List.map_cons, List.sum_cons]
    exact (h a List.mem_cons_self).append hrest

/-- the lines are counted by the newlines -/
theorem newlines_eq {fs : List Fragment} {n : Nat} (h : Takes '\n' fs n) (color : Bool) :
    Text.newlines (renderAll color fs) = n := (newlines_renderAll color fs).trans h

/-- any other character does not occur -/
theorem lacks {fs : List Fragment} {n : Nat} (h : Takes c fs n) (hc : c ≠ '\n') :
    Text.Lacks c (renderAll false fs) :=
  List.count_eq_zero.mp (Eq.trans h (if_neg hc))

end Takes

end Fragment

/-! ## the parts of a report -/

namespace Report

open Fragment Text

section
variable {c : Char} (hc : IsControl c) {names : Names} {id : InstrId}
include hc

theorem lacks_cycleText (cycle : Option Cycle) : Lacks c (cycleText cycle) := by
  cases cycle with
  | none => exact hc.lacks (by decide)
  | some cycle => exact hc.lacks_word cycle

theorem lacks_columns {stage left right : String} (hstage : Lacks c stage) (hleft : Lacks c left)
    (hright : Lacks c right) : Lacks c (columns stage left right) := by
  have hspace : Lacks c " " := hc.lacks (by decide)
  unfold columns
  simp only [lacks_append]
  exact ⟨⟨⟨⟨hc.lacks_alignLeft 10 hstage, hspace⟩, hc.lacks_alignRight 20 hleft⟩, hspace⟩,
    hc.lacks_alignRight 20 hright⟩

theorem takes_words {text : String} (h : (text.toList.all fun d => 32 ≤ d.toNat) = true) :
    Takes c (Fragment.plainLine text) 1 := .plainLine (hc.lacks h)

theorem takes_blankLine : Takes c blankLine 1 := takes_words hc (by decide)

theorem takes_doubleRule : Takes c (Fragment.plainLine doubleRule) 1 :=
  takes_words hc (by decide +kernel)

theorem takes_singleRule : Takes c (Fragment.plainLine singleRule) 1 :=
  takes_words hc (by decide +kernel)

theorem takes_missing {name : String} (hname : Lacks c name) : Takes c (missing name id) 2 := by
  have hline : Lacks c s!"Instruction {id} missing in {name}" := by
    simp only [lacks_append]
    exact ⟨⟨⟨hc.lacks (by decide), hc.lacks_word id⟩, hc.lacks (by decide)⟩, hname⟩
  exact (takes_blankLine hc).append (.plainLine hline)

theorem takes_labelMismatch (hnames : ∀ side, Lacks c (names.of side)) {left right : String}
    (hleft : Lacks c left) (hright : Lacks c right) :
    Takes c (labelMismatch names id left right) 4 := by
  have hwarning : Takes c (line [.styled .caution "Warning:",
      .plain s!" Instruction {id} has different labels:"]) 1 := by
    refine .pair (hc.lacks (by decide)) ?_
    simp only [Fragment.text, lacks_append]
    exact ⟨⟨hc.lacks (by decide), hc.lacks_word id⟩, hc.lacks (by decide)⟩
  have hquote : ∀ side label, Lacks c label → Lacks c s!"  {names.of side}: {label}" := by
    intro side label hlabel
    simp only [lacks_append]
    exact ⟨⟨⟨hc.lacks (by decide), hnames side⟩, hc.lacks (by decide)⟩, hlabel⟩
  exact (((takes_blankLine hc).append hwarning).append
    (.plainLine (hquote .left left hleft))).append (.plainLine (hquote .right right hright))

theorem takes_row {d : StageDelta} (hstage : Lacks c d.stage) : Takes c (row d) 1 := by
  have hcolumns := lacks_columns hc hstage (lacks_cycleText hc d.left) (lacks_cycleText hc d.right)
  unfold row marker
  split
  · exact .single hcolumns
  · exact .pair hcolumns (hc.lacks (by decide))

theorem takes_labelLine {label : String} (hlabel : Lacks c label) :
    Takes c (labelLine label) (if label = "" then 0 else 1) := by
  unfold labelLine
  split
  · exact .nil
  · exact .plainLine (lacks_append.mpr ⟨hc.lacks (by decide), hlabel⟩)

theorem takes_firstDifference (hnames : ∀ side, Lacks c (names.of side)) {label : String}
    (hlabel : Lacks c label) {deltas : List StageDelta} (hstages : ∀ d ∈ deltas, Lacks c d.stage) :
    Takes c (firstDifference names id label deltas)
      (11 + deltas.length + if label = "" then 0 else 1) := by
  have hheadline : Takes c (line [.styled .headline "FIRST DIFFERENCE FOUND"]) 1 :=
    .single (hc.lacks (by decide))
  have hid : Takes c (Fragment.plainLine s!"Instruction ID: {id}") 1 :=
    .plainLine (lacks_append.mpr ⟨hc.lacks (by decide), hc.lacks_word id⟩)
  have hcaption : Takes c (Fragment.plainLine "Stage timing differences:") 1 :=
    takes_words hc (by decide)
  have hcolumns : Takes c (Fragment.plainLine (columns "Stage" names.left names.right)) 1 :=
    .plainLine (lacks_columns hc (hc.lacks (by decide)) (hnames .left) (hnames .right))
  have hrows : Takes c (deltas.flatMap row) deltas.length := by
    refine (Takes.flatMap fun d hd => takes_row hc (hstages d hd)).cast ?_
    rw [List.map_const', List.sum_replicate_nat, Nat.mul_one]
  have hblank := takes_blankLine hc
  have hdouble := takes_doubleRule hc
  have hhead := ((((hblank.append hdouble).append hheadline).append hdouble).append hid).append
    (takes_labelLine hc hlabel)
  have htable := (((hhead.append hblank).append hcaption).append hcolumns).append
    (takes_singleRule hc)
  refine (((htable.append hrows).append hdouble).append hblank).cast ?_
  omega

theorem takes_summary (cmp : Comparison) : Takes c (summary cmp) 5 := by
  have hheading : Takes c (line [.styled .heading "Summary:"]) 1 := .single (hc.lacks (by decide))
  have hchecked : Takes c (Fragment.plainLine s!"  Total instructions checked: {cmp.checked}") 1 :=
    .plainLine (lacks_append.mpr ⟨hc.lacks (by decide), hc.lacks_nat cmp.checked⟩)
  have hdivergent :
      Takes c (Fragment.plainLine s!"  Instructions with differences: {cmp.divergent}") 1 :=
    .plainLine (lacks_append.mpr ⟨hc.lacks (by decide), hc.lacks_nat cmp.divergent⟩)
  have hverdict : Takes c (verdict cmp.firstDivergence) 1 := by
    cases cmp.firstDivergence with
    | some id => exact .plainLine (lacks_append.mpr ⟨hc.lacks (by decide), hc.lacks_word id⟩)
    | none => exact .pair (hc.lacks (by decide)) (hc.lacks (by decide))
  exact ((((takes_blankLine hc).append hheading).append hchecked).append hdivergent).append
    hverdict

end

end Report

/-! ## the lines about findings -/

namespace Finding

/-- the texts that a finding quotes: its labels and its stages -/
def texts : Finding → List String
  | .missing _ _ => []
  | .labelMismatch _ left right => [left, right]
  | .stageTiming _ label deltas => label :: deltas.map StageDelta.stage

/-- the number of lines about the finding, if `first` is the first instruction that differs -/
def height (first : Option InstrId) : Finding → Nat
  | .missing _ _ => 2
  | .labelMismatch _ _ _ => 4
  | .stageTiming id label deltas =>
    if first = some id then 11 + deltas.length + if label = "" then 0 else 1 else 0

variable {first : Option InstrId} {fs : List Finding}

/-- where no stages are shown, the lines are counted by the kinds of the findings -/
theorem sum_height_of_ne (h : ∀ f ∈ fs, f.kind = .stageTiming → first ≠ some f.id) :
    (fs.map (height first)).sum =
      2 * fs.countP (·.kind = .presence) + 4 * fs.countP (·.kind = .label) := by
  induction fs with
  | nil => rfl
  | cons f fs ih =>
    have hrest := ih fun g hg => h g (List.mem_cons_of_mem f hg)
    rw [List.map_cons, List.sum_cons, List.countP_cons, List.countP_cons, hrest]
    cases f with
    | missing id side => simp [height, kind]; omega
    | labelMismatch id left right => simp [height, kind]; omega
    | stageTiming id label deltas =>
      have hfirst : first ≠ some id := h _ List.mem_cons_self rfl
      simp [height, kind, hfirst]

/-- the stages of an instruction are shown once if divergences are about different instructions -/
theorem sum_height_append_cons {id : InstrId} {label : String} {deltas : List StageDelta}
    {before after : List Finding}
    (hnodup : (((before ++ .stageTiming id label deltas :: after).filter isDivergence).map
      Finding.id).Nodup) :
    ((before ++ .stageTiming id label deltas :: after).map (height (some id))).sum =
      2 * (before ++ .stageTiming id label deltas :: after).countP (·.kind = .presence) +
        4 * (before ++ .stageTiming id label deltas :: after).countP (·.kind = .label) +
        (11 + deltas.length + if label = "" then 0 else 1) := by
  rw [List.filter_append, List.filter_cons_of_pos rfl, List.map_append, List.map_cons,
    List.nodup_middle, List.nodup_cons, List.mem_append, not_or] at hnodup
  obtain ⟨⟨hbefore, hafter⟩, -⟩ := hnodup
  have hother : ∀ {fs : List Finding}, id ∉ (fs.filter isDivergence).map Finding.id →
      ∀ f ∈ fs, f.kind = .stageTiming → some id ≠ some f.id := by
    intro fs hid f hf hkind heq
    have hdivergence : f.isDivergence = true := by
      unfold isDivergence
      rw [hkind]
      rfl
    refine hid (List.mem_map.mpr ⟨f, List.mem_filter.mpr ⟨hf, hdivergence⟩, ?_⟩)
    exact (Option.some_inj.mp heq).symm
  have hblock : height (some id) (.stageTiming id label deltas) =
      11 + deltas.length + if label = "" then 0 else 1 := if_pos rfl
  rw [List.map_append, List.sum_append, List.map_cons, List.sum_cons, hblock,
    sum_height_of_ne (hother hbefore), sum_height_of_ne (hother hafter), List.countP_append,
    List.countP_append, List.countP_cons_of_neg Bool.false_ne_true,
    List.countP_cons_of_neg Bool.false_ne_true]
  omega

end Finding

namespace Report

open Fragment

section
variable {c : Char} (hc : Text.IsControl c) {names : Names}
  (hnames : ∀ side, Text.Lacks c (names.of side))
include hc hnames

theorem takes_finding (first : Option InstrId) {f : Finding}
    (h : ∀ text ∈ f.texts, Text.Lacks c text) :
    Takes c (finding names first f) (f.height first) := by
  cases f with
  | missing id side => exact takes_missing hc (hnames side)
  | labelMismatch id left right =>
    obtain ⟨hleft, hrest⟩ := List.forall_mem_cons.mp h
    exact takes_labelMismatch hc hnames hleft (List.forall_mem_singleton.mp hrest)
  | stageTiming id label deltas =>
    obtain ⟨hlabel, hstages⟩ := List.forall_mem_cons.mp h
    show Takes c (if first = some id then firstDifference names id label deltas else [])
      (if first = some id then 11 + deltas.length + if label = "" then 0 else 1 else 0)
    by_cases hfirst : first = some id
    · rw [if_pos hfirst, if_pos hfirst]
      exact takes_firstDifference hc hnames hlabel (List.forall_mem_map.mp hstages)
    · rw [if_neg hfirst, if_neg hfirst]
      exact .nil

/-- **A report has the lines of its findings and of the summary**, whatever they quote. -/
theorem takes_comparison {cmp : Comparison}
    (h : ∀ f ∈ cmp.findings, ∀ text ∈ f.texts, Text.Lacks c text) :
    Takes c (comparison names cmp)
      ((cmp.findings.map (Finding.height cmp.firstDivergence)).sum + 5) :=
  (Takes.flatMap fun f hf => takes_finding hc hnames cmp.firstDivergence (h f hf)).append
    (takes_summary hc cmp)

end

end Report

/-! ## the findings about two traces -/

theorem Record.length_deltas (a b : Record) (stages : StageSet) :
    (a.deltas b stages).length =
      {stage | stages.contains stage = true ∧ a.stage? stage ≠ b.stage? stage}.ncard := by
  rw [← List.length_map (f := StageDelta.stage)]
  refine length_eq_ncard (stages.nodup_toList.sublist (stages_deltas_sublist a b stages)) ?_
  intro stage
  rw [List.mem_map]
  constructor
  · rintro ⟨d, hd, rfl⟩
    obtain ⟨hmem, hleft, hright, hne⟩ := mem_deltas.mp hd
    exact ⟨hmem, by rwa [← hleft, ← hright]⟩
  · rintro ⟨hmem, hne⟩
    exact ⟨⟨stage, a.stage? stage, b.stage? stage⟩, mem_deltas.mpr ⟨hmem, rfl, rfl, hne⟩, rfl⟩

namespace Trace

variable {l r : Trace} {stages : StageSet} {id : InstrId}

theorem find?_of_labelMismatch_mem_findings {left right : String}
    (h : .labelMismatch id left right ∈ l.findings r stages) :
    ∃ a b, l.find? id = some a ∧ r.find? id = some b ∧ left = a.label ∧ right = b.label := by
  obtain ⟨hid, h⟩ := mem_findings.mp h
  have hfound : l.FoundAt r stages id (l.findingsAt r stages id) :=
    foundAt_findingsAt (mem_unionIds.mp hid)
  have h : .labelMismatch id left right ∈ l.findingsAt r stages id := h
  generalize l.findingsAt r stages id = fs at hfound h
  cases hfound with
  | onlyRight hl hr => cases List.mem_singleton.mp h
  | onlyLeft hl hr => cases List.mem_singleton.mp h
  | @both a b ds hl hr hds =>
    refine ⟨a, b, hl, hr, ?_⟩
    rcases List.mem_append.mp h with h | h
    · split at h
      · cases List.mem_singleton.mp h
        exact ⟨rfl, rfl⟩
      · cases h
    · split at h
      · cases h
      · cases List.mem_singleton.mp h

/-- a stage that differs was recorded by one of the traces -/
theorem oneLine_of_mem_deltas (hl : l.Tidy) (hr : r.Tidy) {a b : Record}
    (ha : l.find? id = some a) (hb : r.find? id = some b) {d : StageDelta}
    (hd : d ∈ a.deltas b stages) : Text.OneLine d.stage := by
  obtain ⟨-, hleft, hright, hne⟩ := Record.mem_deltas.mp hd
  rw [hleft, hright] at hne
  cases hstage : a.stage? d.stage with
  | some cycle => exact (hl.stage id a d.stage ha (Option.isSome_of_eq_some hstage)).2
  | none =>
    have hsome : (b.stage? d.stage).isSome = true := by
      rw [Option.isSome_iff_ne_none, ← hstage]
      exact hne.symm
    exact (hr.stage id b d.stage hb hsome).2

theorem oneLine_of_mem_findings (hl : l.Tidy) (hr : r.Tidy) {f : Finding}
    (hf : f ∈ l.findings r stages) : ∀ text ∈ f.texts, Text.OneLine text := by
  cases f with
  | missing id side => exact nofun
  | labelMismatch id left right =>
    obtain ⟨a, b, ha, hb, rfl, rfl⟩ := find?_of_labelMismatch_mem_findings hf
    exact List.forall_mem_cons.mpr
      ⟨(hl.label id a ha).2, List.forall_mem_singleton.mpr (hr.label id b hb).2⟩
  | stageTiming id label deltas =>
    obtain ⟨a, b, ha, hb, rfl, rfl, -⟩ := stageTiming_mem_findings_iff.mp hf
    exact List.forall_mem_cons.mpr ⟨(hl.label id a ha).2,
      List.forall_mem_map.mpr fun d hd => oneLine_of_mem_deltas hl hr ha hb hd⟩

/-! ## the block among the lines -/

/-- the block is there once, for the first instruction that differs -/
theorem sum_height_of_first {a b : Record} (ha : l.find? id = some a) (hb : r.find? id = some b)
    (hfirst : l.DiffersFirst r stages id) :
    ((l.compare r stages).findings.map (Finding.height (some id))).sum =
      2 * (l.compare r stages).findings.countP (·.kind = .presence) +
        4 * (l.compare r stages).findings.countP (·.kind = .label) +
        (11 + (a.deltas b stages).length + if a.label = "" then 0 else 1) := by
  rw [findings_compare]
  have hmem : .stageTiming id a.label (a.deltas b stages) ∈ l.findings r stages :=
    stageTiming_mem_findings_iff.mpr
      ⟨a, b, ha, hb, rfl, rfl, deltas_ne_nil_of_differs ha hb hfirst.1⟩
  have hnodup := nodup_divergentIds l r stages
  obtain ⟨before, after, hfindings⟩ := List.append_of_mem hmem
  unfold divergentIds at hnodup
  rw [hfindings] at hnodup ⊢
  exact Finding.sum_height_append_cons hnodup

theorem sum_height_of_none
    (h : ∀ id, l.DiffersFirst r stages id → ¬ (l.contains id = true ∧ r.contains id = true)) :
    ((l.compare r stages).findings.map
      (Finding.height (l.compare r stages).firstDivergence)).sum =
      2 * (l.compare r stages).findings.countP (·.kind = .presence) +
        4 * (l.compare r stages).findings.countP (·.kind = .label) := by
  refine Finding.sum_height_of_ne fun f hf hkind hfirst => ?_
  rw [findings_compare] at hf
  cases f with
  | missing id side => cases hkind
  | labelMismatch id left right => cases hkind
  | stageTiming id label deltas =>
    obtain ⟨a, b, ha, hb, -⟩ := stageTiming_mem_findings_iff.mp hf
    exact h id (firstDivergence_eq_some_iff.mp hfirst)
      ⟨Option.isSome_of_eq_some ha, Option.isSome_of_eq_some hb⟩

/-- **The content of files adds no lines to a report.**  The texts of traces that were loaded hold
neither tab nor newline, so the lines of a report are counted by its findings: two for each
instruction that is missing, four for each pair of labels, those of one block if both traces have
the first instruction that differs, and five for the summary. -/
theorem newlines_comparison {leftPath rightPath : String} {leftContent rightContent : Content}
    (hl : load leftPath leftContent = .ok l) (hr : load rightPath rightContent = .ok r)
    {names : Names} (hnames : ∀ side, Text.OneLine (names.of side)) (stages : StageSet)
    (color : Bool) :
    l.Tidy ∧ r.Tidy ∧
    let c := l.compare r stages
    let written := Text.newlines (Fragment.renderAll color (Report.comparison names c))
    let missing := c.findings.countP (·.kind = .presence)
    let mismatches := c.findings.countP (·.kind = .label)
    (∀ id a b, l.DiffersFirst r stages id → l.find? id = some a → r.find? id = some b →
      written = 2 * missing + 4 * mismatches +
        (11 + {stage | stages.contains stage = true ∧ a.stage? stage ≠ b.stage? stage}.ncard +
          if a.label = "" then 0 else 1) + 5) ∧
    ((∀ id, l.DiffersFirst r stages id → ¬ (l.contains id = true ∧ r.contains id = true)) →
      written = 2 * missing + 4 * mismatches + 5) := by
  have hleft := tidy_of_load hl
  have hright := tidy_of_load hr
  refine ⟨hleft, hright, ?_⟩
  intro c written missing mismatches
  have hwritten : written = (c.findings.map (Finding.height c.firstDivergence)).sum + 5 := by
    have htexts : ∀ f ∈ c.findings, ∀ text ∈ f.texts, Text.OneLine text := by
      intro f hf
      rw [findings_compare] at hf
      exact oneLine_of_mem_findings hleft hright hf
    exact (Report.takes_comparison (by decide) hnames htexts).newlines_eq color
  constructor
  · intro id a b hfirst ha hb
    have hdivergence : c.firstDivergence = some id := firstDivergence_eq_some_iff.mpr hfirst
    rw [hwritten, hdivergence, sum_height_of_first ha hb hfirst, Record.length_deltas]
  · intro hnone
    rw [hwritten, sum_height_of_none hnone]

/-- two labels and a block about the first instruction, and then one that is missing -/
theorem newlines_comparison_with_block :
    let left : Content := { bytes := Text.bytesOf "L\t2\t0\tadd\tx1 \nS\t2\t1\tEX\nI\t3\t0\n" }
    let right : Content := { bytes := Text.bytesOf "L\t2\t0\tsub\r\nS\t2\t3\tEX" }
    let l := (Loader.replay "a" ["L\t2\t0\tadd\tx1 ", "S\t2\t1\tEX", "I\t3\t0"]).trace
    let r := (Loader.replay "b" ["L\t2\t0\tsub", "S\t2\t3\tEX"]).trace
    let names : Names := ⟨"a", "b"⟩
    load "a" left = .ok l ∧ load "b" right = .ok r ∧ (∀ side, Text.OneLine (names.of side)) ∧
    l.DiffersFirst r .standard 2 ∧ l.find? 2 = some (l.recordOf 2) ∧
    r.find? 2 = some (r.recordOf 2) ∧ (l.recordOf 2).label = "add x1" ∧
    Text.newlines (Fragment.renderAll true (Report.comparison names (l.compare r .standard))) =
      2 * 1 + 4 * 1 + (11 + 1 + 1) + 5 := by
  intro left right l r names
  have hleft : left.Holds ["L\t2\t0\tadd\tx1 ", "S\t2\t1\tEX", "I\t3\t0"] :=
    ⟨rfl, by decide +kernel⟩
  have hright : right.Holds ["L\t2\t0\tsub", "S\t2\t3\tEX"] := ⟨rfl, by decide +kernel⟩
  have hl : load "a" left = .ok l := load_of_holds hleft "a"
  have hr : load "b" right = .ok r := load_of_holds hright "b"
  have hnames : ∀ side, Text.OneLine (names.of side) := by
    intro side
    cases side <;> decide
  have hfirst : l.DiffersFirst r .standard 2 := firstDivergence_eq_some_iff.mp (by decide +kernel)
  have ha : l.find? 2 = some (l.recordOf 2) := find?_eq_some_recordOf (by decide +kernel)
  have hb : r.find? 2 = some (r.recordOf 2) := find?_eq_some_recordOf (by decide +kernel)
  have hlabel : (l.recordOf 2).label = "add x1" := by decide +kernel
  have hdeltas : ((l.recordOf 2).deltas (r.recordOf 2) .standard).length = 1 := by decide +kernel
  have hmissing : (l.compare r .standard).findings.countP (·.kind = .presence) = 1 := by
    decide +kernel
  have hmismatches : (l.compare r .standard).findings.countP (·.kind = .label) = 1 := by
    decide +kernel
  obtain ⟨-, -, hblock, -⟩ := newlines_comparison hl hr hnames .standard true
  have hcount := hblock 2 (l.recordOf 2) (r.recordOf 2) hfirst ha hb
  rw [← Record.length_deltas, hdeltas, hmissing, hmismatches, hlabel] at hcount
  exact ⟨hl, hr, hnames, hfirst, ha, hb, hlabel, hcount⟩

end Trace

end PipeTrace
