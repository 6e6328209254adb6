import PipeTrace.Loader
import PipeTrace.Content
import PipeTrace.Text.Bytes

/-!
# Reading a log from a file

`Loader.read` replays the lines of a file until one of them is not well-formed text or reading
stops. `Trace.load` is the trace of a file that could be read to its end.
-/

set_option autoImplicit false

namespace PipeTrace

/-- how far a file could be replayed -/
structure Reading where
  loader : Loader
  /-- why the file could not be read to its end -/
  stopped : Option Cause

namespace Loader

/-- replays the bytes of lines up to the first that is not well-formed text -/
def readLines (l : Loader) : List (List UInt8) → Reading
  | [] => { loader := l, stopped := none }
  | raw :: rest =>
    match Text.ofBytes? raw with
    | some line => (l.feed line).readLines rest
    | none => { loader := l, stopped := some .malformedText }

def read (l : Loader) (content : Content) : Reading :=
  let reading := l.readLines content.rawLines
  { reading with stopped := reading.stopped <|> content.fault }

end Loader

/-- the state at the end of a file; a failure names the line after those that were read -/
def Reading.ended (reading : Reading) (path : String) : Except Failure Loader :=
  match reading.stopped with
  | none => .ok reading.loader
  | some cause => .error (.cannotRead path (reading.loader.trace.lines + 1) cause)

def Trace.load (path : String) (content : Content) : Except Failure Trace :=
  (((Loader.start path).read content).ended path).map (·.trace)

end PipeTrace
