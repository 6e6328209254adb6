import PipeTrace.Trace

/-!
# Replaying a log

A `Loader` replays the lines of one log in order.  It keeps the running cycle counter, which
starts at 0, and the trace made so far.

* `Loader.start`    before the first line;
* `Loader.apply`    the effect of an event, which fails if a cycle leaves the range of words;
* `Loader.feed`     one line: counted, then applied, or skipped and noted with the reason;
* `Loader.feedAll`  a list of lines.
-/

set_option autoImplicit false

namespace PipeTrace

/-- the state between two lines of a log -/
structure Loader where
  cycle : Cycle := 0
  trace : Trace

namespace Loader

def start (source : String) : Loader where
  trace := { source }

/-- the cycle at a distance from the running counter -/
def offset (l : Loader) (delta : Cycle) : Except LineError Cycle :=
  match Word.plus? l.cycle delta with
  | some cycle => .ok cycle
  | none => .error (.cycleOverflow l.cycle delta)

def apply (l : Loader) : Event → Except LineError Loader
  | .advance delta => do return { l with cycle := ← l.offset delta }
  | .setCycle value => .ok { l with cycle := value }
  | .introduce id => .ok { l with trace := l.trace.touch id }
  | .label id text => .ok { l with trace := l.trace.relabel id text }
  | .enter id relative stage => do
    let cycle ← l.offset relative
    return { l with trace := l.trace.enter id stage cycle }

def step (l : Loader) (line : String) : Except LineError Loader :=
  match Event.parse line with
  | .ok none => .ok l
  | .ok (some event) => l.apply event
  | .error error => .error error

def countLine (l : Loader) : Loader := { l with trace := l.trace.countLine }

/-- replays one line; a line that is rejected is noted and has no other effect -/
def feed (l : Loader) (line : String) : Loader :=
  let l := l.countLine
  match l.step line with
  | .ok l' => l'
  | .error error => { l with trace := l.trace.warn line error }

def feedAll (l : Loader) (lines : List String) : Loader := lines.foldl feed l

@[simp] theorem feedAll_nil (l : Loader) : l.feedAll [] = l := rfl

@[simp] theorem feedAll_cons (l : Loader) (line : String) (lines : List String) :
    l.feedAll (line :: lines) = (l.feed line).feedAll lines := rfl

@[simp] theorem feedAll_append (l : Loader) (lines lines' : List String) :
    l.feedAll (lines ++ lines') = (l.feedAll lines).feedAll lines' := by
  simp [feedAll]

end Loader

end PipeTrace
