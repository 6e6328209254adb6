import Std.Data.ExtTreeMap
import PipeTrace.Decimal.Places
import PipeTrace.Comparison
import PipeTrace.Loader

/-!
# Metrics

Counters and gauges are kept under the text of their keys, `name` or `name{label=value,...}`.

* `Metrics.Update`         one change of a counter or a gauge;
* `Metrics.apply`          the store after a change;
* `Metrics.summary`        the list of all counters and gauges in the order of their keys;
* `Trace.totals`, `Trace.loadUpdates`, `Comparison.updates`   what loading and comparing record;
* `Trace.compareRecorded`   a comparison that records each finding when it notes it.
-/

set_option autoImplicit false

namespace PipeTrace

/-- the counters and gauges recorded so far -/
structure Metrics where
  counters : Std.ExtTreeMap String UInt64 := ∅
  gauges : Std.ExtTreeMap String Float := ∅

namespace Metrics

/-- the name of a metric and its labels -/
structure Key where
  name : String
  labels : List (String × String) := []
deriving DecidableEq, Repr

def Key.text (key : Key) : String :=
  if key.labels = [] then key.name
  else key.name ++ "\x7b" ++ ",".intercalate (key.labels.map fun (k, v) => k ++ "=" ++ v) ++ "\x7d"

inductive Update where
  | increment (key : Key) (n : UInt64)
  | absolute (key : Key) (n : UInt64)
  | gaugeSet (key : Key) (x : Float)
  | gaugeIncrement (key : Key) (x : Float)
  | gaugeDecrement (key : Key) (x : Float)
  /-- a single observation for a histogram, which leaves nothing behind -/
  | observe (key : Key) (x : Float)

def counter? (m : Metrics) (key : String) : Option UInt64 := m.counters[key]?

def gauge? (m : Metrics) (key : String) : Option Float := m.gauges[key]?

def setCounter (m : Metrics) (key : String) (n : UInt64) : Metrics :=
  { m with counters := m.counters.insert key n }

def setGauge (m : Metrics) (key : String) (x : Float) : Metrics :=
  { m with gauges := m.gauges.insert key x }

/-- the store after a change; what was never updated counts as 0 -/
def apply (m : Metrics) : Update → Metrics
  | .increment key n => m.setCounter key.text ((m.counter? key.text).getD 0 + n)
  | .absolute key n => m.setCounter key.text n
  | .gaugeSet key x => m.setGauge key.text x
  | .gaugeIncrement key x => m.setGauge key.text ((m.gauge? key.text).getD 0.0 + x)
  | .gaugeDecrement key x => m.setGauge key.text ((m.gauge? key.text).getD 0.0 - x)
  | .observe _ _ => m

def applyAll (m : Metrics) (updates : List Update) : Metrics := updates.foldl apply m

def entryLine (key value : String) : String := "  " ++ key ++ ": " ++ value ++ "\n"

/-- a titled list of entries, nothing if there are none -/
def group (title : String) (entries : List (String × String)) : String :=
  if entries = [] then ""
  else
    "### " ++ title ++ "\n" ++ String.join (entries.map fun (k, v) => entryLine k v) ++ "\n"

def counterEntries (m : Metrics) : List (String × String) :=
  m.counters.toList.map fun (k, n) => (k, toString n)

def gaugeEntries (m : Metrics) : List (String × String) :=
  m.gauges.toList.map fun (k, x) => (k, Decimal.places 6 x)

def summary (m : Metrics) : String :=
  if m.counters.isEmpty && m.gauges.isEmpty then "No metrics collected.\n"
  else
    "\n## Metrics Summary\n\n" ++ group "Counters" m.counterEntries ++
      group "Gauges" m.gaugeEntries

/-! ## the metrics of loading and comparing -/

/-- lines read, those without an event included -/
def linesTotal : Key := { name := "kanata_lines_total" }

def warningsTotal : Key := { name := "kanata_parse_warnings_total" }

def instructionsTotal (side : String) : Key :=
  { name := "kanata_instructions_total", labels := [("trace", side)] }

def parseSeconds (side : String) : Key :=
  { name := "kanata_parse_seconds", labels := [("trace", side)] }

def checkedTotal : Key := { name := "kanata_instructions_checked_total" }

def divergencesTotal (kind : Finding.Kind) : Key :=
  { name := "kanata_divergences_total", labels := [("kind", kind.name)] }

/-! ## one update at a time -/

@[simp] theorem counter?_new (key : String) : counter? {} key = none := by simp [counter?]
@[simp] theorem gauge?_new (key : String) : gauge? {} key = none := by simp [gauge?]

theorem counter?_setCounter (m : Metrics) (key key' : String) (n : UInt64) :
    (m.setCounter key n).counter? key' = if key = key' then some n else m.counter? key' := by
  simp [counter?, setCounter, Std.ExtTreeMap.getElem?_insert]

theorem gauge?_setGauge (m : Metrics) (key key' : String) (x : Float) :
    (m.setGauge key x).gauge? key' = if key = key' then some x else m.gauge? key' := by
  simp [gauge?, setGauge, Std.ExtTreeMap.getElem?_insert]

@[simp] theorem gauge?_setCounter (m : Metrics) (key key' : String) (n : UInt64) :
    (m.setCounter key n).gauge? key' = m.gauge? key' := rfl

@[simp] theorem counter?_setGauge (m : Metrics) (key key' : String) (x : Float) :
    (m.setGauge key x).counter? key' = m.counter? key' := rfl

@[simp] theorem applyAll_nil (m : Metrics) : m.applyAll [] = m := rfl

@[simp] theorem applyAll_cons (m : Metrics) (u : Update) (us : List Update) :
    m.applyAll (u :: us) = (m.apply u).applyAll us := rfl

@[simp] theorem applyAll_append (m : Metrics) (us us' : List Update) :
    m.applyAll (us ++ us') = (m.applyAll us).applyAll us' := by
  simp [applyAll]

end Metrics

/-- what is recorded when a trace was read to its end -/
def Trace.totals (t : Trace) : List Metrics.Update :=
  [.increment Metrics.linesTotal (.ofNat t.lines),
   .increment Metrics.warningsTotal (.ofNat t.warnings.size)]

/-- what is recorded of the trace that was loaded for one side -/
def Trace.loadUpdates (t : Trace) (side : String) (seconds : Float) : List Metrics.Update :=
  [.absolute (Metrics.instructionsTotal side) (.ofNat t.size),
   .gaugeSet (Metrics.parseSeconds side) seconds]

def Finding.update (f : Finding) : Metrics.Update := .increment (Metrics.divergencesTotal f.kind) 1

def Comparison.updates (c : Comparison) : List Metrics.Update :=
  c.findings.map Finding.update ++ [.increment Metrics.checkedTotal (.ofNat c.checked)]

/-! ## recording on the way -/

/-- a comparison that is under way, and what it has recorded so far -/
structure Comparison.Recorded where
  comparison : Comparison
  updates : List Metrics.Update := []

def Comparison.Recorded.push (s : Recorded) (f : Finding) : Recorded where
  comparison := s.comparison.push f
  updates := s.updates ++ [f.update]

/-- the comparison of two traces, with what it records as it goes -/
def Trace.compareRecorded (l r : Trace) (stages : StageSet) : Comparison.Recorded :=
  let ids := l.unionIds r
  let walked := ids.foldl (visitWith Comparison.Recorded.push l r stages)
    { comparison := { checked := ids.length } }
  { walked with
    updates :=
      walked.updates ++ [.increment Metrics.checkedTotal (.ofNat walked.comparison.checked)] }

/-- the end of a log: its trace, and what is recorded of it -/
def Loader.finish (l : Loader) : Trace × List Metrics.Update := (l.trace, l.trace.totals)

end PipeTrace
