import PipeTrace.Reading
import PipeTrace.Text.Escaped

/-!
# The log of a run

Loading a trace logs a warning for each line that is skipped and, if the file could be read to its
end, a note for whoever asks for details.

A warning quotes the line.  What a terminal would obey in it is written out; the name of the file
is not changed.
-/

set_option autoImplicit false

namespace PipeTrace

inductive LogEntry where
  | skipped (source : String) (warning : Warning)
  | loaded (source : String) (lines instructions warnings : Nat) (finalCycle : Cycle)
deriving DecidableEq, Repr

namespace LogEntry

/-- the entry is a detail that is shown on demand only -/
def isDetail : LogEntry → Bool
  | .skipped _ _ => false
  | .loaded _ _ _ _ _ => true

def complaint (w : Warning) : String :=
  let line := String.ofList (Text.trimEnd w.text.toList)
  Text.escape s!"skipping malformed line `{line}`: {w.error.message}"

def text : LogEntry → String
  | .skipped source w =>
    s!"WARN load\x7bfile={source}\x7d: {complaint w} file={source} line={w.line}"
  | .loaded source lines instructions warnings finalCycle =>
    s!"DEBUG load\x7bfile={source}\x7d: trace loaded file={source} lines={lines}" ++
      s!" instructions={instructions} warnings={warnings} final_cycle={finalCycle}"

end LogEntry

def Trace.skippedEntries (t : Trace) : List LogEntry :=
  t.warnings.toList.map (.skipped t.source)

def Loader.loadedEntry (l : Loader) : LogEntry :=
  .loaded l.trace.source l.trace.lines l.trace.size l.trace.warnings.size l.cycle

def Reading.logEntries (reading : Reading) : List LogEntry :=
  reading.loader.trace.skippedEntries ++
    if reading.stopped.isNone then [reading.loader.loadedEntry] else []

end PipeTrace
