import PipeTrace.Proofs.Counters
import PipeTrace.Proofs.Verdict
import PipeTrace.Proofs.Lines

/-!
# The totals of loading and comparing

A `Metrics.Call` loads a file, records the trace that was loaded for a side, or compares two traces.
`Metrics.Counter.total` says what the calls make of each counter, by what they loaded and found:

* the lines and warnings of all files that could be read to their end;
* the size of the last trace recorded for a side;
* the instructions checked in all comparisons, and the findings of each kind.

No two counters are kept under one text (`Metrics.Counter.text_key_inj`), and each call changes a
counter by its own numbers for it (`Metrics.Counter.changes_updates`).  So after any calls the store
holds these totals.
-/

set_option autoImplicit false

namespace PipeTrace

namespace Metrics

/-- something that is recorded -/
inductive Call where
  /-- a file is read, maybe not to its end -/
  | load (path : String) (content : Content)
  /-- the trace for a side, and the time that loading it took -/
  | recordLoad (side : String) (t : Trace) (seconds : Float)
  | compare (l r : Trace) (stages : StageSet)

namespace Call

/-- what is recorded by a call -/
def updates : Call → List Update
  | load path content =>
    match ((Loader.start path).read content).ended path with
    | .ok loader => loader.finish.2
    | .error _ => []
  | recordLoad side t seconds => t.loadUpdates side seconds
  | compare l r stages => (l.compareRecorded r stages).updates

/-- the trace of a file that could be read to its end -/
def loaded : Call → List Trace
  | load path content =>
    match Trace.load path content with
    | .ok t => [t]
    | .error _ => []
  | recordLoad _ _ _ => []
  | compare _ _ _ => []

/-- the trace that is recorded for the side -/
def recorded (side : String) : Call → List Trace
  | load _ _ => []
  | recordLoad s t _ => if s = side then [t] else []
  | compare _ _ _ => []

def compared : Call → List Comparison
  | load _ _ => []
  | recordLoad _ _ _ => []
  | compare l r stages => [l.compare r stages]

def found (call : Call) : List Finding := call.compared.flatMap (·.findings)

/-- a file leaves its totals behind if it could be read to its end, and nothing otherwise -/
theorem loaded_load (path : String) (content : Content) :
    (∃ t, loaded (load path content) = [t] ∧ updates (load path content) = t.totals) ∨
      (loaded (load path content) = [] ∧ updates (load path content) = []) := by
  rcases content.holds_or_stopsAt with ⟨lines, hlines⟩ | ⟨number, cause, hstop⟩
  · refine Or.inl ⟨(Loader.replay path lines).trace, ?_, ?_⟩
    · simp only [loaded, Trace.load_of_holds hlines]
    · simp only [updates, Trace.ended_of_holds hlines]
      rfl
  · refine Or.inr ⟨?_, ?_⟩
    · simp only [loaded, Trace.load_of_stopsAt hstop]
    · simp only [updates, Trace.ended_of_stopsAt hstop]

/-- the store after calls on a fresh one -/
def recordAll (calls : List Call) : Metrics := applyAll {} (calls.flatMap updates)

end Call

/-! ## the counters -/

inductive Counter where
  | lines
  | warnings
  | instructions (side : String)
  | checked
  | divergences (kind : Finding.Kind)
deriving DecidableEq

namespace Counter

def key : Counter → Key
  | lines => linesTotal
  | warnings => warningsTotal
  | instructions side => instructionsTotal side
  | checked => checkedTotal
  | divergences kind => divergencesTotal kind

def text : Counter → String
  | lines => "kanata_lines_total"
  | warnings => "kanata_parse_warnings_total"
  | instructions side => "kanata_instructions_total\x7btrace=" ++ side ++ "\x7d"
  | checked => "kanata_instructions_checked_total"
  | divergences .presence => "kanata_divergences_total\x7bkind=presence\x7d"
  | divergences .label => "kanata_divergences_total\x7bkind=label\x7d"
  | divergences .stageTiming => "kanata_divergences_total\x7bkind=stage_timing\x7d"

theorem text_key (c : Counter) : c.key.text = c.text := by
  cases c with
  | lines | warnings | checked => rfl
  | instructions side =>
    have hopen : "kanata_instructions_total" ++ "\x7b" ++ ("trace" ++ "=") =
        "kanata_instructions_total\x7btrace=" := by decide +kernel
    show (instructionsTotal side).text =
      "kanata_instructions_total\x7btrace=" ++ side ++ "\x7d"
    rw [← hopen, instructionsTotal, Key.text_single]
    simp only [String.append_assoc]
  | divergences kind => cases kind <;> decide +kernel

theorem brace_notMem_name_key (c : Counter) : '\x7b' ∉ c.key.name.toList := by
  cases c with
  | lines => decide +kernel
  | warnings => decide +kernel
  | instructions side =>
    show '\x7b' ∉ "kanata_instructions_total".toList
    decide +kernel
  | checked => decide +kernel
  | divergences kind =>
    show '\x7b' ∉ "kanata_divergences_total".toList
    decide +kernel

theorem eq_of_kind_name_eq {k k' : Finding.Kind} (h : k.name = k'.name) : k = k' := by
  cases k <;> cases k' <;> first | rfl | exact absurd h (by decide)

/-- the counters are kept apart by the texts of their keys -/
theorem text_key_inj {c d : Counter} (h : c.key.text = d.key.text) : c = d := by
  have hname : c.key.name = d.key.name :=
    Key.name_eq_of_text_eq c.brace_notMem_name_key d.brace_notMem_name_key h
  -- two counters of different form have different names
  cases c <;> cases d <;> simp only [key, linesTotal, warningsTotal, instructionsTotal,
    checkedTotal, divergencesTotal, String.reduceEq] at hname
  case lines.lines => rfl
  case warnings.warnings => rfl
  case instructions.instructions => rw [Key.text_single_inj h]
  case checked.checked => rfl
  case divergences.divergences => rw [eq_of_kind_name_eq (Key.text_single_inj h)]

/-- the sum of numbers, nothing if there are none -/
def sumOf (ns : List Nat) : Option Nat := if ns = [] then none else some ns.sum

/-- a number of things, nothing if there are none -/
def countOf (n : Nat) : Option Nat := if n = 0 then none else some n

/-- what calls make of a counter -/
def total (calls : List Call) : Counter → Option Nat
  | lines => sumOf ((calls.flatMap Call.loaded).map (·.lines))
  | warnings => sumOf ((calls.flatMap Call.loaded).map (·.warnings.size))
  | instructions side => ((calls.flatMap (Call.recorded side)).map Trace.size).getLast?
  | checked => sumOf ((calls.flatMap Call.compared).map (·.checked))
  | divergences kind => countOf ((calls.flatMap Call.found).countP (·.kind = kind))

/-! ## the changes of a counter -/

/-- what updates do to a counter -/
def changes (c : Counter) (us : List Update) : List Change := us.filterMap (·.change? c.key.text)

theorem changes_append (c : Counter) (us us' : List Update) :
    c.changes (us ++ us') = c.changes us ++ c.changes us' := List.filterMap_append

theorem changes_singleton {u : Update} {d : Counter} {x : Change}
    (h : u.changed? = some (d.key, x)) (c : Counter) :
    c.changes [u] = if d = c then [x] else [] := by
  unfold changes
  rw [List.filterMap_cons, Update.change?_of_changed? h]
  by_cases hd : d = c
  · rw [if_pos (by rw [hd]), if_pos hd]
    rfl
  · rw [if_neg fun htext => hd (text_key_inj htext), if_neg hd]
    rfl

theorem changes_totals (c : Counter) (t : Trace) :
    c.changes t.totals =
      (if lines = c then [.add (.ofNat t.lines)] else []) ++
        if warnings = c then [.add (.ofNat t.warnings.size)] else [] := by
  have hlines : Update.changed? (.increment lines.key (.ofNat t.lines)) = some (lines.key, _) := rfl
  have hwarnings : Update.changed? (.increment warnings.key (.ofNat t.warnings.size)) =
    some (warnings.key, _) := rfl
  rw [← changes_singleton hlines, ← changes_singleton hwarnings, ← changes_append]
  rfl

theorem changes_loadUpdates (c : Counter) (t : Trace) (side : String) (seconds : Float) :
    c.changes (t.loadUpdates side seconds) =
      if instructions side = c then [.set (.ofNat t.size)] else [] := by
  have hsize : Update.changed? (.absolute (instructions side).key (.ofNat t.size)) =
    some ((instructions side).key, _) := rfl
  rw [← changes_singleton hsize]
  rfl

theorem changes_findings (c : Counter) (fs : List Finding) :
    c.changes (fs.map Finding.update) =
      (fs.filter fun f => divergences f.kind = c).map fun _ => .add 1 := by
  induction fs with
  | nil => rfl
  | cons f fs ih =>
    have hone : Update.changed? (.increment (divergences f.kind).key 1) =
      some ((divergences f.kind).key, _) := rfl
    rw [List.map_cons, ← List.singleton_append, changes_append, ih]
    show c.changes [.increment (divergences f.kind).key 1] ++ _ = _
    rw [changes_singleton hone, List.filter_cons]
    by_cases h : divergences f.kind = c
    · rw [if_pos h, if_pos (decide_eq_true h)]
      rfl
    · rw [if_neg h, if_neg (by rw [decide_eq_true_eq]; exact h)]
      rfl

theorem changes_comparison (c : Counter) (x : Comparison) :
    c.changes x.updates =
      ((x.findings.filter fun f => divergences f.kind = c).map fun _ => .add 1) ++
        if checked = c then [.add (.ofNat x.checked)] else [] := by
  have hchecked : Update.changed? (.increment checked.key (.ofNat x.checked)) =
    some (checked.key, _) := rfl
  unfold Comparison.updates
  rw [changes_append, changes_findings, ← changes_singleton hchecked]
  rfl

/-- the numbers that a call has for a counter -/
def amounts (call : Call) : Counter → List Nat
  | lines => call.loaded.map (·.lines)
  | warnings => call.loaded.map (·.warnings.size)
  | instructions side => (call.recorded side).map Trace.size
  | checked => call.compared.map (·.checked)
  | divergences kind => (call.found.filter (·.kind = kind)).map fun _ => 1

/-- what a number does to a counter: sizes are set, everything else is added up -/
def change : Counter → Nat → Change
  | instructions _, n => .set (.ofNat n)
  | lines, n | warnings, n | checked, n | divergences _, n => .add (.ofNat n)

theorem changes_updates_load (c : Counter) (path : String) (content : Content) :
    c.changes (Call.load path content).updates =
      (amounts (.load path content) c).map c.change := by
  rcases Call.loaded_load path content with ⟨t, hloaded, hupdates⟩ | ⟨hloaded, hupdates⟩
  · rw [hupdates, changes_totals]
    cases c with
    | lines =>
      show _ = ((Call.load path content).loaded.map _).map _
      rw [hloaded]
      rfl
    | warnings =>
      show _ = ((Call.load path content).loaded.map _).map _
      rw [hloaded]
      rfl
    | instructions | checked | divergences => rfl
  · rw [hupdates]
    cases c with
    | lines | warnings =>
      show [] = ((Call.load path content).loaded.map _).map _
      rw [hloaded]
      rfl
    | instructions | checked | divergences => rfl

theorem changes_updates_recordLoad (c : Counter) (side : String) (t : Trace) (seconds : Float) :
    c.changes (Call.recordLoad side t seconds).updates =
      (amounts (.recordLoad side t seconds) c).map c.change := by
  show c.changes (t.loadUpdates side seconds) = _
  rw [changes_loadUpdates]
  cases c with
  | instructions s =>
    show _ = ((if side = s then [t] else []).map Trace.size).map _
    by_cases hs : side = s
    · rw [if_pos (by rw [hs]), if_pos hs]
      rfl
    · rw [if_neg (by simpa using hs), if_neg hs]
      rfl
  | lines | warnings | checked | divergences => rfl

theorem changes_updates_compare (c : Counter) (l r : Trace) (stages : StageSet) :
    c.changes (Call.compare l r stages).updates =
      (amounts (.compare l r stages) c).map c.change := by
  show c.changes (l.compareRecorded r stages).updates = _
  rw [Trace.compareRecorded_eq, changes_comparison]
  cases c with
  | divergences kind =>
    simp only [divergences.injEq, reduceCtorEq, if_false, List.append_nil, amounts,
      Call.found, Call.compared, List.flatMap_singleton, List.map_map]
    rfl
  | lines | warnings | instructions | checked =>
    simp only [reduceCtorEq, decide_false, List.filter_false]
    rfl

/-- **One call changes a counter by its numbers for it, and in no other way.** -/
theorem changes_updates (c : Counter) (call : Call) :
    c.changes call.updates = (amounts call c).map c.change := by
  cases call with
  | load path content => exact c.changes_updates_load path content
  | recordLoad side t seconds => exact c.changes_updates_recordLoad side t seconds
  | compare l r stages => exact c.changes_updates_compare l r stages

theorem changes_calls (c : Counter) (calls : List Call) :
    c.changes (calls.flatMap Call.updates) = (calls.flatMap (amounts · c)).map c.change := by
  induction calls with
  | nil => rfl
  | cons call calls ih =>
    rw [List.flatMap_cons, changes_append, changes_updates, ih, List.flatMap_cons,
      List.map_append]

/-! ## from changes to totals -/

def combine : Counter → List Nat → Option Nat
  | instructions _, ns => ns.getLast?
  | lines, ns | warnings, ns | checked, ns | divergences _, ns => sumOf ns

theorem foldl_add_eq_sumOf (ns : List Nat) :
    (ns.map fun n => Change.add (.ofNat n)).foldl Change.apply none =
      (sumOf ns).map UInt64.ofNat := by
  rw [Change.foldl_add]
  unfold sumOf
  by_cases hns : ns = []
  · rw [if_pos hns, if_pos hns]
    rfl
  · rw [if_neg hns, if_neg hns]
    exact congrArg some (UInt64.zero_add _)

theorem foldl_change (c : Counter) (ns : List Nat) :
    (ns.map c.change).foldl Change.apply none = (c.combine ns).map UInt64.ofNat := by
  cases c with
  | instructions side =>
    have h := Change.foldl_set (ns.map UInt64.ofNat) none
    rw [List.map_map, List.getLast?_map, Option.or_none] at h
    exact h
  | lines | warnings | checked | divergences => exact foldl_add_eq_sumOf ns

theorem sumOf_ones {α : Type} (p : α → Bool) (as : List α) :
    sumOf ((as.filter p).map fun _ => 1) = countOf (as.countP p) := by
  unfold sumOf countOf
  rw [List.countP_eq_length_filter, List.map_const', List.sum_replicate_nat, Nat.mul_one]
  by_cases h : as.filter p = []
  · rw [h]
    rfl
  · rw [if_neg (by simpa using h), if_neg (by simpa using h)]

theorem total_eq_combine (calls : List Call) (c : Counter) :
    total calls c = c.combine (calls.flatMap (amounts · c)) := by
  cases c with
  | lines | warnings | checked => exact congrArg sumOf List.map_flatMap
  | instructions side => exact congrArg List.getLast? List.map_flatMap
  | divergences kind =>
    show _ = sumOf (calls.flatMap fun call => (call.found.filter (·.kind = kind)).map fun _ => 1)
    rw [← List.map_flatMap, ← List.filter_flatMap, sumOf_ones]
    rfl

/-- a counter is its total, as far as that is a word -/
theorem counter?_recordAll (calls : List Call) (c : Counter) :
    (Call.recordAll calls).counter? c.text = (total calls c).map UInt64.ofNat := by
  unfold Call.recordAll
  rw [counter?_applyAll, counter?_new, ← text_key]
  show (c.changes _).foldl _ _ = _
  rw [changes_calls, foldl_change, total_eq_combine]

/-! ## divergences -/

theorem countP_isDivergence (fs : List Finding) :
    fs.countP Finding.isDivergence =
      fs.countP (·.kind = .presence) + fs.countP (·.kind = .stageTiming) := by
  induction fs with
  | nil => rfl
  | cons f fs ih =>
    rw [List.countP_cons, List.countP_cons, List.countP_cons, ih]
    cases f with
    | missing id side =>
      show _ + 1 = _ + 1 + (_ + 0)
      omega
    | labelMismatch id l r => rfl
    | stageTiming id label ds =>
      show _ + 1 = _ + 0 + (_ + 1)
      omega

/-- the divergences that were found are those that the comparisons count -/
theorem countP_found (calls : List Call) :
    (calls.flatMap Call.found).countP Finding.isDivergence =
      ((calls.flatMap Call.compared).map (·.divergent)).sum := by
  unfold Call.found
  rw [← List.flatMap_assoc, List.countP_flatMap]
  refine congrArg List.sum (List.map_congr_left ?_)
  intro x hx
  obtain ⟨call, -, hcall⟩ := List.mem_flatMap.mp hx
  cases call with
  | compare l r stages =>
    rw [List.mem_singleton.mp hcall]
    show ((l.compare r stages).findings).countP Finding.isDivergence = _
    rw [Trace.findings_compare, Trace.divergent_compare]
  | load | recordLoad => cases hcall

theorem getD_countOf (n : Nat) : (countOf n).getD 0 = n := by
  unfold countOf
  by_cases h : n = 0
  · rw [if_pos h, h]
    rfl
  · rw [if_neg h]
    rfl

end Counter

open Counter in
/-- **After any calls whose totals are words, every counter is its total.**  The instructions that
are missing and those whose stages differ are the divergent ones of all comparisons. -/
theorem counters_recordAll (calls : List Call)
    (h : ∀ c n, total calls c = some n → n < UInt64.size) :
    (∀ c, ((Call.recordAll calls).counter? c.text).map UInt64.toNat = total calls c) ∧
    (((Call.recordAll calls).counter? (divergences .presence).text).getD 0).toNat +
        (((Call.recordAll calls).counter? (divergences .stageTiming).text).getD 0).toNat =
      ((calls.flatMap Call.compared).map (·.divergent)).sum := by
  have hcounter : ∀ c, ((Call.recordAll calls).counter? c.text).map UInt64.toNat =
      total calls c := by
    intro c
    rw [counter?_recordAll]
    cases htotal : total calls c with
    | none => rfl
    | some n => exact congrArg some (UInt64.toNat_ofNat_of_lt' (h c n htotal))
  have hgetD : ∀ c, (((Call.recordAll calls).counter? c.text).getD 0).toNat =
      (total calls c).getD 0 := by
    intro c
    rw [← hcounter c]
    cases (Call.recordAll calls).counter? c.text <;> rfl
  refine ⟨hcounter, ?_⟩
  rw [hgetD, hgetD]
  show (countOf _).getD 0 + (countOf _).getD 0 = _
  rw [getD_countOf, getD_countOf, ← countP_isDivergence, countP_found]

/-- two lines and a skipped one, a file that cannot be read to its end, two sizes for one side, and
a comparison that finds an instruction on one side only and one with other timing -/
theorem counters_recordAll_failed_load :
    let l := (Loader.replay "a" ["I\t7", "S\t8\t2\tEX", "S\t8"]).trace
    let r := (Loader.replay "b" ["S\t8\t5\tEX"]).trace
    let calls : List Call :=
      [.load "a" { bytes := Text.bytesOf "I\t7\nS\t8\t2\tEX\nS\t8\n" },
       .load "b" { bytes := Text.bytesOf "I\t9\nI\t10\n", fault := some .isADirectory },
       .recordLoad "left" l 0.0, .recordLoad "left" r 0.0, .compare l r .standard]
    let count := fun k => ((Call.recordAll calls).counter? k).map UInt64.toNat
    (∀ c n, Counter.total calls c = some n → n < UInt64.size) ∧
    count "kanata_lines_total" = some 3 ∧
    count "kanata_parse_warnings_total" = some 1 ∧
    count "kanata_instructions_total\x7btrace=left\x7d" = some 1 ∧
    count "kanata_instructions_total\x7btrace=right\x7d" = none ∧
    count "kanata_instructions_checked_total" = some 2 ∧
    count "kanata_divergences_total\x7bkind=presence\x7d" = some 1 ∧
    count "kanata_divergences_total\x7bkind=label\x7d" = none ∧
    count "kanata_divergences_total\x7bkind=stage_timing\x7d" = some 1 := by
  intro l r calls count
  have hbound : ∀ c n, Counter.total calls c = some n → n < UInt64.size := by
    intro c n h
    have hsmall : ∀ k, Counter.total calls c = some k → k < 4 → n < UInt64.size := by
      intro k hk hlt
      rw [hk] at h
      cases h
      exact lt_trans hlt (by decide)
    cases c with
    | lines => exact hsmall 3 (by decide +kernel) (by decide)
    | warnings => exact hsmall 1 (by decide +kernel) (by decide)
    | instructions side =>
      by_cases hside : side = "left"
      · subst hside
        exact hsmall 1 (by decide +kernel) (by decide)
      · have hnone : Counter.total calls (.instructions side) = none := by
          show (((if "left" = side then [l] else []) ++ ((if "left" = side then [r] else []) ++
            [])).map Trace.size).getLast? = none
          rw [if_neg (Ne.symm hside), if_neg (Ne.symm hside)]
          rfl
        rw [hnone] at h
        cases h
    | checked => exact hsmall 2 (by decide +kernel) (by decide)
    | divergences kind =>
      cases kind with
      | presence => exact hsmall 1 (by decide +kernel) (by decide)
      | label =>
        have hnone : Counter.total calls (.divergences .label) = none := by decide +kernel
        rw [hnone] at h
        cases h
      | stageTiming => exact hsmall 1 (by decide +kernel) (by decide)
  have hcount : ∀ c, count c.text = Counter.total calls c := (counters_recordAll calls hbound).1
  refine ⟨hbound, (hcount .lines).trans ?_, (hcount .warnings).trans ?_,
    (hcount (.instructions "left")).trans ?_, (hcount (.instructions "right")).trans ?_,
    (hcount .checked).trans ?_, (hcount (.divergences .presence)).trans ?_,
    (hcount (.divergences .label)).trans ?_, (hcount (.divergences .stageTiming)).trans ?_⟩
  all_goals decide +kernel

end Metrics

end PipeTrace
