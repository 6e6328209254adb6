import PipeTrace.Log
import PipeTrace.Metrics
import PipeTrace.Report
import PipeTrace.Sink

/-!
# A session: loading, comparing, reporting

A `Session` is what a comparison of two files leaves behind: the report on a sink, the metrics and
the log. The steps of a comparison are taken in order and the first failure ends them; what was
written, recorded and logged before it stays.

* `Session.emit`           writes a part of the report;
* `Session.loadSideOn`     opens and replays the file of one side;
* `Session.compareOn`      the whole comparison, with the exit code of its verdict;
* `Session.compareFiles`   the same where the answers of the system are known beforehand.

The system is asked for a file when it is needed, and not before (`Host`).
-/

set_option autoImplicit false

namespace PipeTrace

/-- what a comparison leaves behind -/
structure Session where
  sink : Sink := {}
  metrics : Metrics := {}
  log : List LogEntry := []

/-- a comparison of two files that is asked for -/
structure Task where
  paths : Names
  /-- how the report names the two traces -/
  names : Names := paths
  stages : StageSet
  color : Bool := false

/-- a task, and the time that loading takes on either side -/
structure Request extends Task where
  seconds : Side → Float := fun _ => 0.0

abbrev Opener := String → Except Cause Content

/-- what the system answers -/
structure Host (m : Type → Type) where
  openFile : String → m (Except Cause Content)
  /-- how long it took to load the file of a side, asked for when that is done -/
  seconds : Side → m Float

namespace Session

variable {m : Type → Type} {α : Type}

/-- steps that work on a session and may fail, and ask a system -/
abbrev StepOn (m : Type → Type) (α : Type) := ExceptT Failure (StateT Session m) α

/-- steps that do not depend on a system -/
abbrev Step (α : Type) := StepOn Id α

/-- a step on a system that it does not ask -/
def alone [Monad m] (x : Step α) : StepOn m α := ExceptT.mk fun s => pure (x.run s)

def ask [Monad m] (answer : m α) : StepOn m α := ExceptT.mk fun s => do return (.ok (← answer), s)

def emit (color : Bool) (fragments : List Fragment) : Step Unit := do
  let bytes := Text.bytesOf (Fragment.renderAll color fragments)
  let s ← get
  set { s with sink := s.sink.put bytes }
  unless s.sink.fits bytes do throw (.cannotWrite .sinkFull)

def recordMetrics (updates : List Metrics.Update) : Step Unit :=
  modify fun s => { s with metrics := s.metrics.applyAll updates }

def logAll (entries : List LogEntry) : Step Unit :=
  modify fun s => { s with log := s.log ++ entries }

/-- the trace of a file that the system opened, or refused to open -/
def load (path : String) : Except Cause Content → Step Trace
  | .error cause => throw (.cannotOpen path cause)
  | .ok content => do
    let reading := (Loader.start path).read content
    logAll reading.logEntries
    match reading.ended path with
    | .error failure => throw failure
    | .ok loader =>
      recordMetrics loader.finish.2
      return loader.finish.1

def loadSideOn [Monad m] (host : Host m) (paths : Names) (side : Side) : StepOn m Trace := do
  let trace ← alone (load (paths.of side) (← ask (host.openFile (paths.of side))))
  alone (recordMetrics (trace.loadUpdates side.name (← ask (host.seconds side))))
  return trace

def announceOn [Monad m] (host : Host m) (task : Task) (side : Side) : StepOn m Trace := do
  alone (emit task.color (Report.parsing (task.names.of side)))
  loadSideOn host task.paths side

/-- the report of two traces that were loaded; the exit code says whether they agree -/
def conclude (task : Task) (left right : Trace) : Step Nat := do
  emit task.color (Report.counts task.names left.size right.size)
  let recorded := left.compareRecorded right task.stages
  recordMetrics recorded.updates
  emit task.color (Report.comparison task.names recorded.comparison)
  return recorded.comparison.exitCode

/-- loads both traces, compares them and writes the report -/
def compareOn [Monad m] (host : Host m) (task : Task) : StepOn m Nat := do
  alone (emit task.color (Report.stages task.stages))
  let left ← announceOn host task .left
  let right ← announceOn host task .right
  alone (conclude task left right)

def known (openFile : Opener) (request : Request) : Host Id where
  openFile := openFile
  seconds := request.seconds

def compareFiles (openFile : Opener) (request : Request) : Step Nat :=
  compareOn (known openFile request) request.toTask

end Session

end PipeTrace
