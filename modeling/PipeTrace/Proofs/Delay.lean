import PipeTrace.Proofs.Correspondence
import PipeTrace.Proofs.Grammar
import PipeTrace.Proofs.Reference

/-!
# Logs that start later

A log is replayed twice, the second time after one more line, which advances the counter by `k`
(`delayed`); `k` may be negative.  As long as no line sets the counter, and no cycle leaves the range
of words in either run, the two counters stay `k` apart, and so do all cycles that are recorded:

* `Chronicle.line_delayed`    one line, read at two counters that are `k` apart;
* `Chronicle.lines_delayed`   the lines of a log;
* `Trace.Delayed`             the traces that are left;
* `Finding.Delayed`           what is found if both logs of a comparison are delayed.

Absent stages stay absent, so a comparison of delayed logs finds the same instructions and stages,
with later cycles (`Trace.compare_delayed`).
-/

set_option autoImplicit false

namespace PipeTrace

/-- the log after a line that advances the counter -/
def delayed (k : Cycle) (lines : List String) : List String := ("C\t" ++ toString k) :: lines

def LineError.isOverflow : LineError → Bool
  | .cycleOverflow _ _ => true
  | .missingField _ _ _ | .invalidInteger _ _ _ => false

/-- none of the warnings is about a cycle out of range -/
def NoOverflow (ws : List Warning) : Prop := ∀ w ∈ ws, w.error.isOverflow = false

instance (ws : List Warning) : Decidable (NoOverflow ws) :=
  inferInstanceAs (Decidable (∀ w ∈ ws, w.error.isOverflow = false))

/-- the warning about a line that has one more line before it -/
def Warning.later (w : Warning) : Warning := { w with line := w.line + 1 }

theorem noOverflow_append {ws ws' : List Warning} :
    NoOverflow (ws ++ ws') ↔ NoOverflow ws ∧ NoOverflow ws' := by
  unfold NoOverflow
  simp only [List.mem_append, or_imp, forall_and]

/-! ## the line that advances the counter -/

theorem Event.splitOn_advance (k : Cycle) :
    (Text.trim ("C\t" ++ toString k).toList).splitOn '\t' = [['C'], (toString k).toList] := by
  have hdenotes : Decimal.Denotes (toString k).toList k.toInt := Decimal.denotes_toString k.toInt
  have hline : ("C\t" ++ toString k).toList = ['C'] ++ '\t' :: (toString k).toList := by
    rw [String.toList_append]
    rfl
  have htab : '\t' ∉ (toString k).toList := fun hmem =>
    Bool.false_ne_true ((hdenotes.not_isBlank hmem).symm.trans Text.isBlank_tab)
  have htrim : Text.trim ("C\t" ++ toString k).toList = ['C'] ++ '\t' :: (toString k).toList := by
    rw [hline]
    apply Text.trim_eq_self
    · intro c hc
      cases hc
      decide
    · intro c hc
      rw [List.singleton_append, List.getLast?_cons_cons,
        List.getLast?_cons_of_ne_nil hdenotes.ne_nil] at hc
      exact hdenotes.not_isBlank (List.mem_of_getLast? hc)
  rw [htrim, List.splitOn_append_cons_self_of_not_mem (by decide), List.splitOn_eq_singleton htab]

theorem Event.parse_advance (k : Cycle) :
    parse ("C\t" ++ toString k) = .ok (some (.advance k)) := by
  have hdenotes : Decimal.Denotes (toString k).toList k.toInt := Decimal.denotes_toString k.toInt
  refine parse_eq_iff.mpr (.advance (splitOn_advance k) ?_)
  rwa [Text.trim_eq_self_of_solid fun c => hdenotes.not_isBlank]

/-! ## marks that are later -/

namespace Mark

def delay (k : Int) : Mark → Mark
  | .introduced id => .introduced id
  | .labelled id text => .labelled id text
  | .entered id stage cycle => .entered id stage (cycle + k)

variable {k : Int}

theorem id_delay (m : Mark) : (m.delay k).id = m.id := by
  cases m <;> rfl

theorem filterMap_label?_delay (ms : List Mark) :
    (ms.map (delay k)).filterMap label? = ms.filterMap label? := by
  rw [List.filterMap_map]
  refine List.filterMap_congr fun m _ => ?_
  cases m <;> rfl

theorem lookup_entries_delay (ms : List Mark) (stage : String) :
    ((ms.map (delay k)).filterMap entry?).lookup stage =
      ((ms.filterMap entry?).lookup stage).map (· + k) := by
  induction ms with
  | nil => rfl
  | cons m ms ih =>
    cases m with
    | introduced _ => exact ih
    | labelled _ _ => exact ih
    | entered _ stage' cycle =>
      show ((stage', cycle + k) :: (ms.map (delay k)).filterMap entry?).lookup stage =
        (((stage', cycle) :: ms.filterMap entry?).lookup stage).map (· + k)
      rw [List.lookup_cons, List.lookup_cons]
      cases stage == stage' with
      | true => rfl
      | false => exact ih

end Mark

/-! ## lines that are read at two counters -/

namespace Chronicle

def setsCounter (line : String) : Bool :=
  match Event.parse line with
  | .ok (some (.setCycle _)) => true
  | _ => false

/-- the line is not skipped for a cycle out of range -/
def InRange (n : Int) (line : String) : Prop :=
  ∀ error, refusal? n line = some error → error.isOverflow = false

section
variable {n k : Int} {line : String}

theorem InRange.fits_advance {delta : Cycle} (h : InRange n line)
    (hparse : Event.parse line = .ok (some (.advance delta))) :
    Word.Fits (n + delta.toInt) := by
  by_contra hout
  cases h _ (refusal?_of_advance hparse hout)

theorem InRange.fits_enter {id : InstrId} {relative : Cycle} {stage : String} (h : InRange n line)
    (hparse : Event.parse line = .ok (some (.enter id relative stage))) :
    Word.Fits (n + relative.toInt) := by
  by_contra hout
  cases h _ (refusal?_of_enter hparse hout)

/-- a line that is in range at both counters leaves them as far apart, says the same but for the
cycle, and is skipped at both or at none -/
theorem line_delayed (hset : setsCounter line = false) (h : InRange n line)
    (h' : InRange (n + k) line) :
    next (n + k) line = next n line + k ∧
    mark? (n + k) line = (mark? n line).map (Mark.delay k) ∧
    refusal? (n + k) line = refusal? n line := by
  unfold setsCounter at hset
  unfold next mark? refusal?
  cases hparse : Event.parse line with
  | error error => exact ⟨rfl, rfl, rfl⟩
  | ok event? =>
    cases event? with
    | none => exact ⟨rfl, rfl, rfl⟩
    | some event =>
      cases event with
      | setCycle value =>
        rw [hparse] at hset
        cases hset
      | introduce id => exact ⟨rfl, rfl, rfl⟩
      | label id text => exact ⟨rfl, rfl, rfl⟩
      | advance delta =>
        simp only [if_pos (h.fits_advance hparse), if_pos (h'.fits_advance hparse)]
        refine ⟨?_, rfl, trivial⟩
        omega
      | enter id relative stage =>
        simp only [if_pos (h.fits_enter hparse), if_pos (h'.fits_enter hparse)]
        refine ⟨trivial, ?_, trivial⟩
        show some (Mark.entered id stage _) = some (Mark.entered id stage _)
        rw [Int.add_right_comm]

end

/-- what is not among the warnings about lines is not among those about the first line, nor among
those about the others -/
theorem noOverflow_refusalsFrom_cons {n : Int} {i : Nat} {line : String} {rest : List String} :
    NoOverflow (refusalsFrom n i (line :: rest)) ↔
      InRange n line ∧ NoOverflow (refusalsFrom (next n line) (i + 1) rest) := by
  rw [refusalsFrom, noOverflow_append]
  refine and_congr_left fun _ => ?_
  unfold NoOverflow InRange
  cases refusal? n line <;> simp

/-- lines that are in range at two counters `k` apart leave the counters `k` apart, and say the same
but for the cycles -/
theorem lines_delayed {n k : Int} {i : Nat} {lines : List String}
    (hset : ∀ line ∈ lines, setsCounter line = false)
    (h : NoOverflow (refusalsFrom n i lines)) (h' : NoOverflow (refusalsFrom (n + k) (i + 1) lines)) :
    counterFrom (n + k) lines = counterFrom n lines + k ∧
    marksFrom (n + k) lines = (marksFrom n lines).map (Mark.delay k) ∧
    refusalsFrom (n + k) (i + 1) lines = (refusalsFrom n i lines).map Warning.later := by
  induction lines generalizing n i with
  | nil => exact ⟨rfl, rfl, rfl⟩
  | cons line rest ih =>
    obtain ⟨hline, hrest⟩ := noOverflow_refusalsFrom_cons.mp h
    obtain ⟨hline', hrest'⟩ := noOverflow_refusalsFrom_cons.mp h'
    obtain ⟨hnext, hmark, hrefusal⟩ := line_delayed (hset line List.mem_cons_self) hline hline'
    rw [hnext] at hrest'
    obtain ⟨hcounter, hmarks, hrefusals⟩ :=
      ih (fun l hl => hset l (List.mem_cons_of_mem line hl)) hrest hrest'
    refine ⟨?_, ?_, ?_⟩
    · rw [counterFrom_cons, counterFrom_cons, hnext, hcounter]
    · rw [marksFrom, marksFrom, hnext, hmark, hmarks, List.map_append, ← Option.toList_map]
    · rw [refusalsFrom, refusalsFrom, hnext, hrefusal, hrefusals, List.map_append, List.map_map]
      rfl

end Chronicle

open Chronicle

/-! ## traces of delayed logs -/

/-- the same record with later cycles -/
structure Record.Delayed (k : Cycle) (r r' : Record) : Prop where
  id : r'.id = r.id
  label : r'.label = r.label
  stage? : ∀ stage, (r'.stage? stage).map Int64.toInt =
    (r.stage? stage).map fun cycle => cycle.toInt + k.toInt

/-- a trace of the same instructions with later cycles -/
structure Trace.Delayed (k : Cycle) (t t' : Trace) : Prop where
  ids : t'.ids = t.ids
  records : ∀ id, Option.Rel (Record.Delayed k) (t.find? id) (t'.find? id)

/-- no line of the log sets the counter, and no line is skipped for a cycle out of range, whether the
log is delayed or not -/
structure Loader.Delayable (k : Cycle) (source : String) (lines : List String) : Prop where
  not_set : ∀ line ∈ lines, setsCounter line = false
  noOverflow : NoOverflow (replay source lines).trace.warnings.toList
  noOverflow_delayed : NoOverflow (replay source (delayed k lines)).trace.warnings.toList

instance (k : Cycle) (source : String) (lines : List String) :
    Decidable (Loader.Delayable k source lines) :=
  decidable_of_iff
    ((∀ line ∈ lines, setsCounter line = false) ∧
      NoOverflow (Loader.replay source lines).trace.warnings.toList ∧
      NoOverflow (Loader.replay source (delayed k lines)).trace.warnings.toList)
    ⟨fun h => ⟨h.1, h.2.1, h.2.2⟩, fun h => ⟨h.not_set, h.noOverflow, h.noOverflow_delayed⟩⟩

namespace Loader

section
variable {k : Cycle} {source : String} {lines : List String}

/-- what the first line of a delayed log does -/
theorem advance_eq (k : Cycle) :
    next 0 ("C\t" ++ toString k) = 0 + k.toInt ∧ mark? 0 ("C\t" ++ toString k) = none ∧
    refusal? 0 ("C\t" ++ toString k) = none := by
  have hfits : Word.Fits (0 + k.toInt) := by
    rw [Int.zero_add]
    exact Word.fits_toInt k
  unfold next mark? refusal?
  rw [Event.parse_advance]
  exact ⟨if_pos hfits, rfl, if_pos hfits⟩

theorem refusalsFrom_delayed (k : Cycle) (lines : List String) :
    refusalsFrom 0 0 (delayed k lines) = refusalsFrom (0 + k.toInt) (0 + 1) lines := by
  obtain ⟨hnext, -, hrefusal⟩ := advance_eq k
  unfold delayed
  rw [refusalsFrom, hnext, hrefusal]
  rfl

section
variable (h : Delayable k source lines)
include h

/-- a delayed log has a counter that is later, marks that are later, and the same lines are skipped -/
theorem Delayable.chronicle :
    counter (delayed k lines) = counter lines + k.toInt ∧
    marks (delayed k lines) = (marks lines).map (Mark.delay k.toInt) ∧
    refusalsFrom 0 0 (delayed k lines) = (refusalsFrom 0 0 lines).map Warning.later := by
  obtain ⟨hnext, hmark, -⟩ := advance_eq k
  have hplain := h.noOverflow
  have hlater := h.noOverflow_delayed
  rw [warnings_replay] at hplain hlater
  rw [refusalsFrom_delayed] at hlater
  obtain ⟨hcounter, hmarks, hrefusals⟩ := lines_delayed h.not_set hplain hlater
  refine ⟨?_, ?_, ?_⟩
  · unfold counter delayed
    rw [counterFrom_cons, hnext, hcounter]
  · unfold marks delayed
    rw [marksFrom, hnext, hmark, hmarks]
    rfl
  · rw [refusalsFrom_delayed, hrefusals]

theorem Delayable.named_delayed : named (delayed k lines) = named lines := by
  unfold named
  rw [h.chronicle.2.1, Mark.map_id_map_of_id_eq Mark.id_delay]

theorem Delayable.labels_delayed (id : InstrId) : labels (delayed k lines) id = labels lines id := by
  unfold labels marksOf
  rw [h.chronicle.2.1, Mark.filter_map_of_id_eq Mark.id_delay, Mark.filterMap_label?_delay]

theorem Delayable.lookup_entries_delayed (id : InstrId) (stage : String) :
    (entries (delayed k lines) id).lookup stage =
      ((entries lines id).lookup stage).map (· + k.toInt) := by
  unfold entries marksOf
  rw [h.chronicle.2.1, Mark.filter_map_of_id_eq Mark.id_delay, Mark.lookup_entries_delay]

theorem Delayable.recordOf_delayed (id : InstrId) :
    ((replay source lines).trace.recordOf id).Delayed k
      ((replay source (delayed k lines)).trace.recordOf id) where
  id := by rw [Trace.id_recordOf, Trace.id_recordOf]
  label := by rw [label_replay, label_replay, h.labels_delayed]
  stage? stage := by
    rw [stage?_replay, h.lookup_entries_delayed, ← stage?_replay source, Option.map_map]
    rfl

theorem Delayable.trace_delayed :
    (replay source lines).trace.Delayed k (replay source (delayed k lines)).trace where
  ids := by
    apply eq_of_pairwise_lt Int64.toInt (Trace.pairwise_toInt_ids _) (Trace.pairwise_toInt_ids _)
    intro id
    rw [Trace.mem_ids, Trace.mem_ids, isSome_find?_replay, isSome_find?_replay, h.named_delayed]
  records id := by
    rw [find?_replay, find?_replay, h.named_delayed]
    by_cases hid : id ∈ named lines
    · rw [if_pos hid, if_pos hid]
      exact .some (h.recordOf_delayed id)
    · rw [if_neg hid, if_neg hid]
      exact .none

end

end

end Loader

/-! ## comparisons of delayed logs -/

structure StageDelta.Delayed (k : Cycle) (d d' : StageDelta) : Prop where
  stage : d'.stage = d.stage
  left : d'.left.map Int64.toInt = d.left.map fun cycle => cycle.toInt + k.toInt
  right : d'.right.map Int64.toInt = d.right.map fun cycle => cycle.toInt + k.toInt

/-- the same finding, but the deltas are at later cycles -/
inductive Finding.Delayed (k : Cycle) : Finding → Finding → Prop
  | missing (id : InstrId) (side : Side) : Delayed k (.missing id side) (.missing id side)
  | labelMismatch (id : InstrId) (left right : String) :
    Delayed k (.labelMismatch id left right) (.labelMismatch id left right)
  | stageTiming (id : InstrId) (label : String) {deltas deltas' : List StageDelta}
    (h : List.Forall₂ (StageDelta.Delayed k) deltas deltas') :
    Delayed k (.stageTiming id label deltas) (.stageTiming id label deltas')

theorem Finding.faithful_delayed (k : Cycle) : Faithful (Delayed k) := by
  intro f g h
  cases h with
  | missing => exact ⟨rfl, rfl⟩
  | labelMismatch => exact ⟨rfl, rfl⟩
  | stageTiming => exact ⟨rfl, rfl⟩

namespace Record

variable {k : Cycle} {a a' b b' : Record} (ha : a.Delayed k a') (hb : b.Delayed k b')
include ha hb

/-- later records differ where the records do, because as much is added to all cycles -/
theorem Delayed.stage?_eq_iff (stage : String) :
    a'.stage? stage = b'.stage? stage ↔ a.stage? stage = b.stage? stage := by
  have hword : Function.Injective (Option.map Int64.toInt) :=
    Option.map_injective fun _ _ => Int64.toInt.inj
  have hlater : Function.Injective (Option.map fun cycle : Cycle => cycle.toInt + k.toInt) :=
    Option.map_injective fun _ _ heq => Int64.toInt.inj ((Int.add_left_inj _).mp heq)
  rw [← hword.eq_iff, ha.stage?, hb.stage?, hlater.eq_iff]

theorem Delayed.deltas (stages : StageSet) :
    List.Forall₂ (StageDelta.Delayed k) (a.deltas b stages) (a'.deltas b' stages) := by
  unfold Record.deltas
  induction stages.toList with
  | nil => exact .nil
  | cons stage rest ih =>
    rw [List.filterMap_cons, List.filterMap_cons]
    by_cases hsame : a.stage? stage = b.stage? stage
    · rw [if_pos hsame, if_pos ((ha.stage?_eq_iff hb stage).mpr hsame)]
      exact ih
    · rw [if_neg hsame, if_neg (mt (ha.stage?_eq_iff hb stage).mp hsame)]
      exact .cons ⟨rfl, ha.stage? stage, hb.stage? stage⟩ ih

theorem Delayed.labelFindings (id : InstrId) :
    List.Forall₂ (Finding.Delayed k) (a.labelFindings b id) (a'.labelFindings b' id) := by
  unfold Record.labelFindings
  rw [ha.label, hb.label]
  split
  · exact .cons (.labelMismatch id a.label b.label) .nil
  · exact .nil

theorem Delayed.timingFindings (stages : StageSet) (id : InstrId) :
    List.Forall₂ (Finding.Delayed k) (a.timingFindings b stages id)
      (a'.timingFindings b' stages id) := by
  have hdeltas := ha.deltas hb stages
  unfold Record.timingFindings
  by_cases hnil : a.deltas b stages = []
  · have hnil' : a'.deltas b' stages = [] := by rwa [hnil, List.forall₂_nil_left_iff] at hdeltas
    rw [if_pos hnil, if_pos hnil']
    exact .nil
  · have hnil' : a'.deltas b' stages ≠ [] := by
      intro heq
      rw [heq, List.forall₂_nil_right_iff] at hdeltas
      exact hnil hdeltas
    rw [if_neg hnil, if_neg hnil', ha.label]
    exact .cons (.stageTiming id a.label hdeltas) .nil

end Record

namespace Trace

variable {k : Cycle} {l l' r r' : Trace}

theorem Delayed.isSome_find? (h : l.Delayed k l') (id : InstrId) :
    (l'.find? id).isSome = (l.find? id).isSome := by
  have hrecords := h.records id
  generalize l.find? id = a, l'.find? id = a' at hrecords
  cases hrecords with
  | none => rfl
  | some _ => rfl

theorem Delayed.findingsAt (hl : l.Delayed k l') (hr : r.Delayed k r') (stages : StageSet)
    (id : InstrId) :
    List.Forall₂ (Finding.Delayed k) (l.findingsAt r stages id) (l'.findingsAt r' stages id) := by
  have hleft := hl.records id
  have hright := hr.records id
  unfold Trace.findingsAt
  generalize l.find? id = a, l'.find? id = a', r.find? id = b, r'.find? id = b' at hleft hright
  cases hleft with
  | none => exact .cons (.missing id .left) .nil
  | some ha =>
    cases hright with
    | none => exact .cons (.missing id .right) .nil
    | some hb => exact List.rel_append (ha.labelFindings hb id) (ha.timingFindings hb stages id)

theorem Delayed.matches_compare (hl : l.Delayed k l') (hr : r.Delayed k r') (stages : StageSet) :
    (l.compare r stages).Matches (Finding.Delayed k) (l'.compare r' stages) :=
  Trace.matches_compare (Finding.faithful_delayed k)
    (unionIds_congr hl.isSome_find? hr.isSome_find?) fun id _ => hl.findingsAt hr stages id

/-- **A log that starts later leaves the same trace at later cycles, and a comparison of two such logs
finds the same at later cycles.** -/
theorem compare_delayed (k : Cycle) :
    (∀ source lines, Loader.Delayable k source lines →
      let l := Loader.replay source lines
      let l' := Loader.replay source (delayed k lines)
      l.trace.Delayed k l'.trace ∧ l'.cycle.toInt = l.cycle.toInt + k.toInt ∧
      l'.trace.warnings.toList = l.trace.warnings.toList.map Warning.later) ∧
    ∀ source source' lines lines' stages, Loader.Delayable k source lines →
      Loader.Delayable k source' lines' →
      ((Loader.replay source lines).trace.compare (Loader.replay source' lines').trace
        stages).Matches (Finding.Delayed k)
        ((Loader.replay source (delayed k lines)).trace.compare
          (Loader.replay source' (delayed k lines')).trace stages) := by
  refine ⟨fun source lines h => ⟨h.trace_delayed, ?_, ?_⟩, ?_⟩
  · rw [Loader.toInt_cycle_replay, Loader.toInt_cycle_replay, h.chronicle.1]
  · rw [Loader.warnings_replay, Loader.warnings_replay, h.chronicle.2.2]
  · intro source source' lines lines' stages h h'
    exact h.trace_delayed.matches_compare h'.trace_delayed stages

/-- two logs that start 10 cycles sooner: a malformed line stays malformed, one line further on, and
a stage that one log lacks stays absent -/
theorem compare_delayed_by_minus_ten :
    let left := ["S\t7\t1\tEX", "S\t7"]
    let right := ["C\t3", "S\t7\t1\tEX", "S\t7\t2\tWB"]
    let l := (Loader.replay "a" (delayed (-10) left)).trace
    let r := (Loader.replay "b" (delayed (-10) right)).trace
    Loader.Delayable (-10) "a" left ∧ Loader.Delayable (-10) "b" right ∧
    l.warnings.toList = [{ line := 3, text := "S\t7", error := .missingField .enter 3 1 }] ∧
    ((Loader.replay "a" left).trace.compare (Loader.replay "b" right).trace .standard).Matches
      (Finding.Delayed (-10)) (l.compare r .standard) ∧
    (l.compare r .standard).findings =
      [.stageTiming 7 "" [{ stage := "EX", left := some (-9), right := some (-6) },
        { stage := "WB", left := none, right := some (-5) }]] := by
  intro left right l r
  have hl : Loader.Delayable (-10) "a" left := by decide +kernel
  have hr : Loader.Delayable (-10) "b" right := by decide +kernel
  obtain ⟨htrace, hcompare⟩ := compare_delayed (-10)
  refine ⟨hl, hr, ?_, hcompare _ _ _ _ _ hl hr, by decide +kernel⟩
  rw [(htrace _ _ hl).2.2]
  decide +kernel

end Trace

end PipeTrace
