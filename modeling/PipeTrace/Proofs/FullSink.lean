import PipeTrace.Proofs.Conclusion

/-!
# Reports on a sink that fills up

A sink has no part in what a session does, until it is full:

* `Session.writeAll_eq_write`   to write pieces one after the other, up to the first that does not
  fit, is to write the whole, so it makes no difference how a report is cut into writes;
* `Session.Writes.run_limited`  a step leaves the first of its bytes on a sink with room for fewer,
  and fails;
* `Session.SinkBlind`           a step that does not fail at the sink has the same result, metrics
  and log on every sink.

A comparison of two files is a step of this kind, however it ends
(`Session.compareFiles_on_limited_sink`).
-/

set_option autoImplicit false

namespace PipeTrace

namespace Session

/-! ## writing piece by piece -/

/-- writes pieces one after the other, up to the first that does not fit -/
def writeAll : List (List UInt8) → Step Unit
  | [] => pure ()
  | bytes :: rest => do
    write bytes
    writeAll rest

theorem write_nil : write [] = pure () := by
  funext s
  show (write []).run s = _
  rw [run_write, Sink.fits_nil, Sink.put_nil]
  rfl

theorem write_append (as bs : List UInt8) :
    write (as ++ bs) = write as >>= fun _ => write bs := by
  funext s
  show (write (as ++ bs)).run s = (write as >>= fun _ => write bs).run s
  have hrun := run_write as s
  rw [run_write, Sink.fits_append, Sink.put_append]
  cases hfits : s.sink.fits as with
  | true =>
    rw [hfits, if_pos rfl] at hrun
    rw [run_bind_ok hrun, run_write, Bool.true_and]
  | false =>
    rw [hfits, if_neg Bool.false_ne_true] at hrun
    rw [run_bind_error hrun, Bool.false_and, Sink.put_of_not_fits hfits]
    rfl

theorem writeAll_eq_write (pieces : List (List UInt8)) :
    writeAll pieces = write pieces.flatten := by
  induction pieces with
  | nil => exact write_nil.symm
  | cons bytes rest ih =>
    rw [List.flatten_cons, write_append, ← ih]
    rfl

/-- a part of the report may be written in any number of pieces -/
theorem emit_eq_writeAll {color : Bool} {fs : List Fragment} {pieces : List (List UInt8)}
    (h : pieces.flatten = Text.bytesOf (Fragment.renderAll color fs)) :
    emit color fs = writeAll pieces := by
  rw [emit_eq_write, writeAll_eq_write, h]

/-! ## a sink without limit and one with a limit -/

namespace Writes

variable {α : Type} {x : Step α} {bytes : List UInt8} {result : Except Failure α}
  (h : Writes x bytes result) (metrics : Metrics) (log : List LogEntry)
include h

theorem run_unlimited :
    (x.run { metrics, log }).2.sink.held = bytes ∧ (x.run { metrics, log }).1 = result := by
  obtain ⟨hresult, hsink⟩ := h { metrics, log }
  exact ⟨congrArg Sink.held hsink, hresult⟩

theorem run_limited (n : Nat) :
    (x.run { sink := { room := some n }, metrics, log }).2.sink.held = bytes.take n ∧
    (x.run { sink := { room := some n }, metrics, log }).1 =
      if bytes.length ≤ n then result else .error (.cannotWrite .sinkFull) := by
  obtain ⟨hresult, hsink⟩ := h { sink := { room := some n }, metrics, log }
  refine ⟨congrArg Sink.held hsink, ?_⟩
  rw [hresult]
  show (if decide (bytes.length ≤ n) = true then _ else _) = _
  simp only [decide_eq_true_eq]

end Writes

/-! ## what a session does apart from writing -/

section
variable {α β : Type}

/-- the result of a run, the metrics and the log, without what the sink holds -/
def effect (run : Except Failure α × Session) : Except Failure α × Metrics × List LogEntry :=
  (run.1, run.2.metrics, run.2.log)

/-- the run did not fail at the sink -/
def Unhindered (run : Except Failure α × Session) : Prop :=
  ∀ cause, run.1 ≠ .error (.cannotWrite cause)

/-- on every sink at which it does not fail the step does the same -/
def SinkBlind (x : Step α) : Prop :=
  ∀ (metrics : Metrics) (log : List LogEntry) (sink sink' : Sink),
    Unhindered (x.run { sink, metrics, log }) →
    Unhindered (x.run { sink := sink', metrics, log }) →
    effect (x.run { sink := sink', metrics, log }) = effect (x.run { sink, metrics, log })

namespace SinkBlind

theorem pure (a : α) : SinkBlind (Pure.pure a : Step α) := fun _ _ _ _ _ _ => rfl

theorem fail (f : Failure) : SinkBlind (throw f : Step α) := fun _ _ _ _ _ _ => rfl

theorem recordMetrics (updates : List Metrics.Update) : SinkBlind (Session.recordMetrics updates) :=
  fun _ _ _ _ _ _ => rfl

theorem logAll (entries : List LogEntry) : SinkBlind (Session.logAll entries) :=
  fun _ _ _ _ _ _ => rfl

theorem write (bytes : List UInt8) : SinkBlind (Session.write bytes) := by
  intro metrics log sink sink' h h'
  have hfits : ∀ k : Sink, Unhindered ((Session.write bytes).run { sink := k, metrics, log }) →
      k.fits bytes = true := by
    intro k hk
    by_contra hfull
    refine hk .sinkFull ?_
    rw [run_write]
    exact if_neg hfull
  rw [run_write, run_write, hfits sink h, hfits sink' h']
  rfl

theorem emit (color : Bool) (fs : List Fragment) : SinkBlind (Session.emit color fs) :=
  write _

theorem bind {x : Step α} {f : α → Step β} (hx : SinkBlind x) (hf : ∀ a, SinkBlind (f a)) :
    SinkBlind (x >>= f) := by
  intro metrics log sink sink' h h'
  -- a first step that fails at the sink would end the whole with that failure
  have first : ∀ k : Sink, Unhindered ((x >>= f).run { sink := k, metrics, log }) →
      Unhindered (x.run { sink := k, metrics, log }) := by
    intro k hk cause hfull
    exact hk cause (congrArg Prod.fst (run_bind_error (Prod.ext hfull rfl) f))
  have heffect := hx metrics log sink sink' (first sink h) (first sink' h')
  cases hrun : x.run { sink, metrics, log } with
  | mk result s =>
    cases hrun' : x.run { sink := sink', metrics, log } with
    | mk result' s' =>
      obtain ⟨k, m, l⟩ := s
      obtain ⟨k', m', l'⟩ := s'
      rw [hrun, hrun'] at heffect
      cases heffect
      cases result with
      | error e =>
        rw [run_bind_error hrun, run_bind_error hrun']
        rfl
      | ok a =>
        rw [run_bind_ok hrun] at h ⊢
        rw [run_bind_ok hrun'] at h' ⊢
        exact hf a m l k k' h h'

end SinkBlind

variable (openFile : Opener) (request : Request)

theorem sinkBlind_load (path : String) (opened : Except Cause Content) :
    SinkBlind (load path opened) := by
  unfold load
  split
  · exact .fail _
  · refine .bind (.logAll _) fun _ => ?_
    split
    · exact .fail _
    · exact .bind (.recordMetrics _) fun _ => .pure _

theorem sinkBlind_announceAndLoad (side : Side) :
    SinkBlind (announceAndLoad openFile request side) :=
  .bind (.emit _ _) fun _ => .bind (sinkBlind_load _ _) fun _ =>
    .bind (.recordMetrics _) fun _ => .pure _

theorem sinkBlind_conclude (task : Task) (l r : Trace) : SinkBlind (conclude task l r) :=
  .bind (.emit _ _) fun _ => .bind (.recordMetrics _) fun _ => .bind (.emit _ _) fun _ => .pure _

theorem sinkBlind_compareFiles : SinkBlind (compareFiles openFile request) := by
  rw [compareFiles_eq]
  exact .bind (.emit _ _) fun _ => .bind (sinkBlind_announceAndLoad _ _ _) fun _ =>
    .bind (sinkBlind_announceAndLoad _ _ _) fun _ => sinkBlind_conclude _ _ _

end

/-- a comparison ends in a way of its own, not at the sink -/
theorem Concludes.result_ne {openFile : Opener} {request : Request} {result : Except Failure Nat}
    {code : Nat} {text : String} (h : Concludes openFile request result code text) (cause : Cause) :
    result ≠ .error (.cannotWrite cause) := by
  intro heq
  cases h with
  | leftFails h => cases h <;> cases heq
  | rightFails _ h => cases h <;> cases heq
  | agree _ _ _ _ => cases heq
  | differ _ _ _ _ => cases heq

/-- **A sink that fills up cuts the report off, and nothing else changes.**  Of the text that a
comparison writes on a sink without limit, a sink with room for `n` bytes holds the first `n`.  The
comparison ends in the same way if the text fits, with the same metrics and the same log; if not, it
fails with exit code 3, whatever its result would have been. -/
theorem compareFiles_on_limited_sink (openFile : Opener) (request : Request) (metrics : Metrics)
    (log : List LogEntry) (n : Nat) :
    let free := (compareFiles openFile request).run { metrics, log }
    let limited := (compareFiles openFile request).run { sink := { room := some n }, metrics, log }
    let text := free.2.sink.held
    limited.2.sink.held = text.take (min n text.length) ∧
    limited.1 = (if text.length ≤ n then free.1 else .error (.cannotWrite .sinkFull)) ∧
    exitCode limited.1 = (if text.length ≤ n then exitCode free.1 else 3) ∧
    (text.length ≤ n → effect limited = effect free) := by
  intro free limited text
  obtain ⟨result, code, report, hends⟩ := exists_concludes openFile request
  obtain ⟨htext, hfree⟩ := hends.writes.1.run_unlimited metrics log
  obtain ⟨hheld, hlimited⟩ := hends.writes.1.run_limited metrics log n
  have hresult : limited.1 =
      if text.length ≤ n then free.1 else .error (.cannotWrite .sinkFull) := by
    rw [show limited.1 = _ from hlimited, show free.1 = result from hfree,
      show text = Text.bytesOf report from htext]
  refine ⟨?_, hresult, ?_, fun hfits => ?_⟩
  · rw [← List.take_eq_take_min, show text = Text.bytesOf report from htext]
    exact hheld
  · rw [hresult]
    by_cases hfits : text.length ≤ n
    · rw [if_pos hfits, if_pos hfits]
    · rw [if_neg hfits, if_neg hfits]
      rfl
  · have hfree' : Unhindered free := fun cause heq => hends.result_ne cause (hfree.symm.trans heq)
    have hlimited' : Unhindered limited := by
      intro cause heq
      rw [hresult, if_pos hfits] at heq
      exact hfree' cause heq
    exact sinkBlind_compareFiles openFile request metrics log _ _ hfree' hlimited'

/-- a file that cannot be opened; its name is cut inside a character, or the text just fits -/
theorem compareFiles_on_limited_sink_cut :
    let request : Request := { paths := { left := "é", right := "b" }, stages := .ofList ["EX"] }
    let step := compareFiles (fun _ => .error .noSuchFile) request
    let free := step.run {}
    let cut := step.run { sink := { room := some 30 } }
    let full := step.run { sink := { room := some 35 } }
    exitCode free.1 = 2 ∧ free.2.sink.held.length = 35 ∧ exitCode cut.1 = 3 ∧
    cut.2.sink.held = Text.bytesOf "Checking stages: EX\n\nParsing " ++ [0xC3] ∧
    effect full = effect free := by
  intro request step free cut full
  have hlength : free.2.sink.held.length = 35 := by decide +kernel
  have hbytes : free.2.sink.held.take (min 30 35) =
      Text.bytesOf "Checking stages: EX\n\nParsing " ++ [0xC3] := by decide +kernel
  obtain ⟨hheld, -, hcode, -⟩ :=
    compareFiles_on_limited_sink (fun _ => .error .noSuchFile) request {} [] 30
  obtain ⟨-, -, -, hfull⟩ :=
    compareFiles_on_limited_sink (fun _ => .error .noSuchFile) request {} [] 35
  refine ⟨by decide +kernel, hlength, hcode.trans ?_, hheld.trans ?_, hfull (le_of_eq hlength)⟩
  · exact if_neg (by rw [show List.length _ = 35 from hlength]; decide)
  · rw [show List.length _ = 35 from hlength]
    exact hbytes

end Session

end PipeTrace
