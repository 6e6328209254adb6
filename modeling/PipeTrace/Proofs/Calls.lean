import PipeTrace.Proofs.Totals
import PipeTrace.Proofs.Writes

/-!
# The calls of a session

A session that compares two files loads them, records what was loaded for each side and compares the
traces.  `Session.calls` are these calls, up to the first failure, and on a sink without a limit a
session records what they record and nothing else (`Session.metrics_compareFiles`).
-/

set_option autoImplicit false

namespace PipeTrace

namespace Session

section
variable (openFile : Opener) (request : Request)

/-- the trace of one side, if its file can be opened and read to its end -/
def trace? (side : Side) : Except Failure Trace :=
  match openFile (request.paths.of side) with
  | .error cause => .error (.cannotOpen (request.paths.of side) cause)
  | .ok content => Trace.load (request.paths.of side) content

open Metrics in
def loadCalls (side : Side) : List Call :=
  match openFile (request.paths.of side) with
  | .error _ => []
  | .ok content =>
    .load (request.paths.of side) content ::
      match Trace.load (request.paths.of side) content with
      | .error _ => []
      | .ok t => [.recordLoad side.name t (request.seconds side)]

open Metrics in
/-- the calls of a comparison of two files; the first failure ends them -/
def calls : List Call :=
  loadCalls openFile request .left ++
    match trace? openFile request .left with
    | .error _ => []
    | .ok l =>
      loadCalls openFile request .right ++
        match trace? openFile request .right with
        | .error _ => []
        | .ok r => [.compare l r request.stages]

end

variable {α β : Type}

/-- on every sink without a limit the step records the updates and ends with the result -/
def Records (x : Step α) (us : List Metrics.Update) (result : Except Failure α) : Prop :=
  ∀ s : Session, s.sink.room = none →
    (x.run s).1 = result ∧ (x.run s).2.sink.room = none ∧
    (x.run s).2.metrics = s.metrics.applyAll us

namespace Records

theorem cast {x : Step α} {us us' : List Metrics.Update} {result : Except Failure α}
    (h : Records x us result) (heq : us = us') : Records x us' result := heq ▸ h

theorem pure (a : α) : Records (Pure.pure a : Step α) [] (.ok a) := fun _ h => ⟨rfl, h, rfl⟩

theorem fail (f : Failure) : Records (throw f : Step α) [] (.error f) := fun _ h => ⟨rfl, h, rfl⟩

theorem logAll (entries : List LogEntry) : Records (Session.logAll entries) [] (.ok ()) :=
  fun _ h => ⟨rfl, h, rfl⟩

theorem recordMetrics (us : List Metrics.Update) :
    Records (Session.recordMetrics us) us (.ok ()) :=
  fun _ h => ⟨rfl, h, rfl⟩

theorem emit (color : Bool) (fs : List Fragment) :
    Records (Session.emit color fs) [] (.ok ()) := by
  intro s hroom
  rw [emit_eq_write, run_write, if_pos (Sink.fits_of_room hroom _)]
  exact ⟨rfl, Sink.room_put_of_room hroom _, rfl⟩

theorem bind {x : Step α} {f : α → Step β} {us us' : List Metrics.Update} {a : α}
    {result : Except Failure β} (hx : Records x us (.ok a)) (hf : Records (f a) us' result) :
    Records (x >>= f) (us ++ us') result := by
  intro s hroom
  obtain ⟨hresult, hroom', hmetrics⟩ := hx s hroom
  rw [run_bind_ok (Prod.ext hresult rfl), Metrics.applyAll_append, ← hmetrics]
  exact hf _ hroom'

theorem bind_error {x : Step α} {f : α → Step β} {us : List Metrics.Update} {e : Failure}
    (hx : Records x us (.error e)) : Records (x >>= f) us (.error e) := by
  intro s hroom
  obtain ⟨hresult, hroom', hmetrics⟩ := hx s hroom
  rw [run_bind_error (Prod.ext hresult rfl)]
  exact ⟨rfl, hroom', hmetrics⟩

end Records

/-! ## the whole comparison -/

variable (openFile : Opener) (request : Request)

theorem records_load (path : String) (content : Content) :
    Records (load path (.ok content)) (Metrics.Call.updates (.load path content))
      (Trace.load path content) := by
  unfold load
  rcases content.holds_or_stopsAt with ⟨lines, hlines⟩ | ⟨number, cause, hstop⟩
  · have hupdates : Metrics.Call.updates (.load path content) =
        (Loader.replay path lines).finish.2 := by
      simp only [Metrics.Call.updates, Trace.ended_of_holds hlines]
    simp only [Trace.ended_of_holds hlines]
    rw [hupdates, Trace.load_of_holds hlines]
    exact (Records.logAll _).bind (Records.cast
      ((Records.recordMetrics _).bind (Records.pure _)) (List.append_nil _))
  · have hupdates : Metrics.Call.updates (.load path content) = [] := by
      simp only [Metrics.Call.updates, Trace.ended_of_stopsAt hstop]
    simp only [Trace.ended_of_stopsAt hstop]
    rw [hupdates, Trace.load_of_stopsAt hstop]
    exact (Records.logAll _).bind (Records.fail _)

theorem records_loadSide (side : Side) :
    Records (loadSide openFile request side)
      ((loadCalls openFile request side).flatMap Metrics.Call.updates)
      (trace? openFile request side) := by
  unfold loadSide loadCalls trace?
  cases hopen : openFile (request.paths.of side) with
  | error cause => exact (Records.fail _).bind_error
  | ok content =>
    have hrecords := records_load (request.paths.of side) content
    dsimp only
    cases hload : Trace.load (request.paths.of side) content with
    | error f =>
      rw [hload] at hrecords
      exact hrecords.bind_error.cast (List.append_nil _).symm
    | ok t =>
      rw [hload] at hrecords
      exact hrecords.bind ((Records.recordMetrics _).bind (Records.pure t))

theorem records_announceAndLoad (side : Side) :
    Records (announceAndLoad openFile request side)
      ((loadCalls openFile request side).flatMap Metrics.Call.updates)
      (trace? openFile request side) :=
  (Records.emit _ _).bind (records_loadSide openFile request side)

theorem records_conclude (task : Task) (l r : Trace) :
    Records (conclude task l r) (Metrics.Call.updates (.compare l r task.stages))
      (.ok (l.compareRecorded r task.stages).comparison.exitCode) := by
  have hcode := Records.pure (l.compareRecorded r task.stages).comparison.exitCode
  exact ((Records.emit _ _).bind ((Records.recordMetrics _).bind
    ((Records.emit _ _).bind hcode))).cast (List.append_nil _)

theorem records_compareFiles :
    ∃ result, Records (compareFiles openFile request)
      ((calls openFile request).flatMap Metrics.Call.updates) result := by
  have hleft := records_announceAndLoad openFile request .left
  have hright := records_announceAndLoad openFile request .right
  rw [compareFiles_eq]
  unfold calls
  cases hl : trace? openFile request .left with
  | error f =>
    rw [hl] at hleft
    exact ⟨_, ((Records.emit _ _).bind hleft.bind_error).cast
      (congrArg (List.flatMap _) (List.append_nil _).symm)⟩
  | ok l =>
    rw [hl] at hleft
    dsimp only
    rw [List.flatMap_append]
    cases hr : trace? openFile request .right with
    | error f =>
      rw [hr] at hright
      dsimp only
      rw [List.append_nil]
      exact ⟨_, (Records.emit _ _).bind (hleft.bind hright.bind_error)⟩
    | ok r =>
      rw [hr] at hright
      dsimp only
      rw [List.flatMap_append, List.flatMap_singleton]
      exact ⟨_, (Records.emit _ _).bind
        (hleft.bind (hright.bind (records_conclude request.toTask l r)))⟩

/-- **A session records what its calls record**, whether they fail or not. -/
theorem metrics_compareFiles (metrics : Metrics) (log : List LogEntry) :
    ((compareFiles openFile request).run { metrics, log }).2.metrics =
      metrics.applyAll ((calls openFile request).flatMap Metrics.Call.updates) := by
  obtain ⟨result, hrecords⟩ := records_compareFiles openFile request
  exact (hrecords { metrics, log } rfl).2.2

end Session

end PipeTrace
