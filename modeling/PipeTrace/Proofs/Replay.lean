import PipeTrace.Proofs.Chronicle

/-!
# A loader follows the chronicle

`Loader.step_eq` says what one line does to a loader, in the words of the chronicle.  From it come
the fields of a loader after a line (`feed`) and after lines (`feedAll`): the counter, the number of
lines, the warnings, and for each instruction its record.
-/

set_option autoImplicit false

namespace PipeTrace

open Chronicle

namespace Trace

/-- writes a mark into the record of its instruction -/
def mark (t : Trace) (m : Mark) : Trace := t.modify m.id m.update m.id_update

def note (t : Trace) : Option Mark → Trace
  | none => t
  | some m => t.mark m

theorem find?_mark (t : Trace) (m : Mark) (id : InstrId) :
    (t.mark m).find? id = if m.id = id then some (m.update (t.recordOf id)) else t.find? id := by
  unfold mark
  rw [find?_modify]
  split
  · rename_i h
    rw [h]
  · rfl

theorem recordOf_eq {t : Trace} {id : InstrId} {r : Record} (h : t.find? id = some r) :
    t.recordOf id = r := by
  unfold recordOf
  rw [h, Option.getD_some]

theorem find?_eq_some_recordOf {t : Trace} {id : InstrId} (h : (t.find? id).isSome) :
    t.find? id = some (t.recordOf id) := by
  obtain ⟨r, hr⟩ := Option.isSome_iff_exists.mp h
  rw [recordOf_eq hr, hr]

end Trace

namespace Record

/-- what becomes of a record under marks -/
def follow (r : Record) (ms : List Mark) : Record := ms.foldl (fun r m => m.update r) r

theorem follow_cons (r : Record) (m : Mark) (ms : List Mark) :
    r.follow (m :: ms) = (m.update r).follow ms := rfl

theorem follow_append (r : Record) (ms ms' : List Mark) :
    r.follow (ms ++ ms') = (r.follow ms).follow ms' := List.foldl_append

end Record

namespace Loader

/-! ## one line -/

theorem offset_of_fits {l : Loader} {delta : Cycle}
    (h : Word.Fits (l.cycle.toInt + delta.toInt)) :
    l.offset delta = .ok (Int64.ofInt (l.cycle.toInt + delta.toInt)) := by
  have hp : Word.plus? l.cycle delta = some (Int64.ofInt (l.cycle.toInt + delta.toInt)) := if_pos h
  unfold offset
  rw [hp]

theorem offset_of_not_fits {l : Loader} {delta : Cycle}
    (h : ¬ Word.Fits (l.cycle.toInt + delta.toInt)) :
    l.offset delta = .error (.cycleOverflow l.cycle delta) := by
  have hp : Word.plus? l.cycle delta = none := Word.plus?_eq_none_iff.mpr h
  unfold offset
  rw [hp]

/-- **The effect of a line on a loader is what the chronicle says of the line.** -/
theorem step_eq (l : Loader) (line : String) :
    l.step line =
      match refusal? l.cycle.toInt line with
      | some error => .error error
      | none => .ok { cycle := Int64.ofInt (next l.cycle.toInt line)
                      trace := l.trace.note (mark? l.cycle.toInt line) } := by
  unfold step refusal? next mark?
  cases Event.parse line with
  | error error => rfl
  | ok event? =>
    cases event? with
    | none =>
      show Except.ok l = .ok ({ l with cycle := Int64.ofInt l.cycle.toInt } : Loader)
      rw [Int64.ofInt_toInt]
    | some event =>
      cases event with
      | advance delta =>
        by_cases h : Word.Fits (l.cycle.toInt + delta.toInt)
        · simp only [apply, offset_of_fits h, if_pos h]
          rfl
        · simp only [apply, offset_of_not_fits h, if_neg h, Int64.ofInt_toInt]
          rfl
      | setCycle value =>
        show Except.ok ({ l with cycle := value } : Loader) = .ok _
        rw [Int64.ofInt_toInt]
        rfl
      | introduce id =>
        show Except.ok ({ l with trace := l.trace.touch id } : Loader) = .ok _
        rw [Int64.ofInt_toInt]
        rfl
      | label id text =>
        show Except.ok ({ l with trace := l.trace.relabel id text } : Loader) = .ok _
        rw [Int64.ofInt_toInt]
        rfl
      | enter id relative stage =>
        by_cases h : Word.Fits (l.cycle.toInt + relative.toInt)
        · simp only [apply, offset_of_fits h, if_pos h, Int64.ofInt_toInt]
          rfl
        · simp only [apply, offset_of_not_fits h, if_neg h, Int64.ofInt_toInt]
          rfl

theorem feed_of_refusal? {l : Loader} {line : String} {error : LineError}
    (h : refusal? l.cycle.toInt line = some error) :
    l.feed line = { l with trace := l.trace.countLine.warn line error } := by
  have hc : refusal? l.countLine.cycle.toInt line = some error := h
  have hs : l.countLine.step line = .error error := by rw [step_eq, hc]
  unfold feed
  simp only [hs]
  rfl

theorem feed_of_refusal?_eq_none {l : Loader} {line : String}
    (h : refusal? l.cycle.toInt line = none) :
    l.feed line = { cycle := Int64.ofInt (next l.cycle.toInt line)
                    trace := l.trace.countLine.note (mark? l.cycle.toInt line) } := by
  have hc : refusal? l.countLine.cycle.toInt line = none := h
  have hs : l.countLine.step line =
      .ok { cycle := Int64.ofInt (next l.cycle.toInt line)
            trace := l.trace.countLine.note (mark? l.cycle.toInt line) } := by
    rw [step_eq, hc]
    rfl
  unfold feed
  simp only [hs]

theorem toInt_cycle_feed (l : Loader) (line : String) :
    (l.feed line).cycle.toInt = next l.cycle.toInt line := by
  cases h : refusal? l.cycle.toInt line with
  | none =>
    rw [feed_of_refusal?_eq_none h]
    exact Word.toInt_ofInt_of_fits (fits_next (Word.fits_toInt l.cycle) line)
  | some error =>
    rw [feed_of_refusal? h, (next_and_mark?_of_refusal? h).1]

theorem find?_feed (l : Loader) (line : String) (id : InstrId) :
    (l.feed line).trace.find? id = (l.trace.note (mark? l.cycle.toInt line)).find? id := by
  cases h : refusal? l.cycle.toInt line with
  | none =>
    rw [feed_of_refusal?_eq_none h]
    cases mark? l.cycle.toInt line with
    | none => rfl
    | some m =>
      show (l.trace.countLine.mark m).find? id = (l.trace.mark m).find? id
      rw [Trace.find?_mark, Trace.find?_mark]
      rfl
  | some error =>
    rw [feed_of_refusal? h, (next_and_mark?_of_refusal? h).2]
    rfl

theorem lines_feed (l : Loader) (line : String) :
    (l.feed line).trace.lines = l.trace.lines + 1 := by
  cases h : refusal? l.cycle.toInt line with
  | none =>
    rw [feed_of_refusal?_eq_none h]
    cases mark? l.cycle.toInt line <;> rfl
  | some error =>
    rw [feed_of_refusal? h]
    rfl

theorem warnings_feed (l : Loader) (line : String) :
    (l.feed line).trace.warnings.toList =
      l.trace.warnings.toList ++ (refusal? l.cycle.toInt line).toList.map fun error =>
        { line := l.trace.lines + 1, text := line, error } := by
  cases h : refusal? l.cycle.toInt line with
  | none =>
    rw [feed_of_refusal?_eq_none h, Option.toList_none, List.map_nil, List.append_nil]
    cases mark? l.cycle.toInt line <;> rfl
  | some error =>
    rw [feed_of_refusal? h]
    show (l.trace.warnings.push _).toList = _
    rw [Array.toList_push]
    rfl

theorem recordOf_feed (l : Loader) (line : String) (id : InstrId) :
    (l.feed line).trace.recordOf id =
      (l.trace.recordOf id).follow ((mark? l.cycle.toInt line).toList.filter (·.id = id)) := by
  unfold Trace.recordOf
  rw [find?_feed]
  cases mark? l.cycle.toInt line with
  | none => rfl
  | some m =>
    show ((l.trace.mark m).find? id).getD _ = _
    rw [Trace.find?_mark]
    by_cases h : m.id = id
    · simp [h, Record.follow, Trace.recordOf]
    · simp [h, Record.follow]

theorem isSome_find?_feed (l : Loader) (line : String) (id : InstrId) :
    ((l.feed line).trace.find? id).isSome ↔
      (l.trace.find? id).isSome ∨ ∃ m, mark? l.cycle.toInt line = some m ∧ m.id = id := by
  rw [find?_feed]
  cases mark? l.cycle.toInt line with
  | none => simp [Trace.note]
  | some m =>
    show ((l.trace.mark m).find? id).isSome ↔ _
    rw [Trace.find?_mark]
    by_cases h : m.id = id <;> simp [h]

/-! ## the lines of a log -/

/-- the loader after the lines of a log with the given name -/
def replay (source : String) (lines : List String) : Loader := (start source).feedAll lines

theorem toInt_cycle_feedAll (l : Loader) (lines : List String) :
    (l.feedAll lines).cycle.toInt = counterFrom l.cycle.toInt lines := by
  induction lines generalizing l with
  | nil => rfl
  | cons line rest ih => rw [feedAll_cons, ih, toInt_cycle_feed, counterFrom_cons]

theorem lines_feedAll (l : Loader) (lines : List String) :
    (l.feedAll lines).trace.lines = l.trace.lines + lines.length := by
  induction lines generalizing l with
  | nil => rfl
  | cons line rest ih =>
    rw [feedAll_cons, ih, lines_feed, List.length_cons]
    omega

theorem warnings_feedAll (l : Loader) (lines : List String) :
    (l.feedAll lines).trace.warnings.toList =
      l.trace.warnings.toList ++ refusalsFrom l.cycle.toInt l.trace.lines lines := by
  induction lines generalizing l with
  | nil => rw [feedAll_nil, refusalsFrom, List.append_nil]
  | cons line rest ih =>
    rw [feedAll_cons, ih, warnings_feed, lines_feed, toInt_cycle_feed, refusalsFrom,
      List.append_assoc]

theorem recordOf_feedAll (l : Loader) (lines : List String) (id : InstrId) :
    (l.feedAll lines).trace.recordOf id =
      (l.trace.recordOf id).follow ((marksFrom l.cycle.toInt lines).filter (·.id = id)) := by
  induction lines generalizing l with
  | nil => rfl
  | cons line rest ih =>
    rw [feedAll_cons, ih, recordOf_feed, toInt_cycle_feed, marksFrom, List.filter_append,
      Record.follow_append]

theorem isSome_find?_feedAll (l : Loader) (lines : List String) (id : InstrId) :
    ((l.feedAll lines).trace.find? id).isSome ↔
      (l.trace.find? id).isSome ∨ ∃ m ∈ marksFrom l.cycle.toInt lines, m.id = id := by
  induction lines generalizing l with
  | nil => simp [marksFrom]
  | cons line rest ih =>
    rw [feedAll_cons, ih, isSome_find?_feed, toInt_cycle_feed, marksFrom, or_assoc]
    simp only [List.mem_append, Option.mem_toList, or_and_right, exists_or]

theorem toInt_cycle_replay (source : String) (lines : List String) :
    (replay source lines).cycle.toInt = counter lines := toInt_cycle_feedAll _ _

theorem warnings_replay (source : String) (lines : List String) :
    (replay source lines).trace.warnings.toList = refusalsFrom 0 0 lines := by
  unfold replay
  rw [warnings_feedAll]
  rfl

theorem lines_replay (source : String) (lines : List String) :
    (replay source lines).trace.lines = lines.length := by
  unfold replay
  rw [lines_feedAll]
  exact Nat.zero_add _

end Loader

end PipeTrace
