import PipeTrace.Text.Blank
import PipeTrace.Decimal.Signed

/-!
# Events of a pipeline log

A log is a text of lines, a line a list of fields between tabs, and the first field a code:

* `C <delta>`                 the running cycle counter moves on;
* `C= <value>`                the running cycle counter is set;
* `I <id> <thread> <number>`  an instruction is introduced;
* `L <id> <thread> <text>`    an instruction is labelled;
* `S <id> <relative> <stage>` an instruction enters a pipeline stage.

`Event.parse` decodes one line.  Blank lines, lines with a single field and lines with any other
code carry no event.  A line whose code is known but whose fields cannot be read is rejected with
a `LineError`; all fields are read before the event is made, so a rejected line has no partial
effect.
-/

set_option autoImplicit false

namespace PipeTrace

/-- a simulation cycle, absolute or relative -/
abbrev Cycle := Int64

/-- the number by which a log names an instruction -/
abbrev InstrId := Int64

/-- the codes of the events that bear on stage timing -/
inductive EventCode where
  | advance
  | setCycle
  | introduce
  | label
  | enter
deriving DecidableEq, Repr

def EventCode.text : EventCode → String
  | .advance => "C"
  | .setCycle => "C="
  | .introduce => "I"
  | .label => "L"
  | .enter => "S"

def EventCode.ofField? : List Char → Option EventCode
  | ['C'] => some .advance
  | ['C', '='] => some .setCycle
  | ['I'] => some .introduce
  | ['L'] => some .label
  | ['S'] => some .enter
  | _ => none

/-- the fields of an event that hold an integer -/
inductive IntField where
  | cycleDelta
  | cycleValue
  | instructionId
  | relativeCycle
deriving DecidableEq, Repr

def IntField.name : IntField → String
  | .cycleDelta => "cycle delta"
  | .cycleValue => "cycle value"
  | .instructionId => "instruction id"
  | .relativeCycle => "relative cycle"

inductive LineError where
  | missingField (code : EventCode) (expected actual : Nat)
  | invalidInteger (field : IntField) (value : String) (reason : Decimal.ReadError)
  | cycleOverflow (base delta : Cycle)
deriving DecidableEq, Repr

def LineError.message : LineError → String
  | .missingField code expected actual =>
    s!"`{code.text}` event needs at least {expected} argument(s), got {actual}"
  | .invalidInteger field value reason => s!"invalid {field.name} `{value}`: {reason.message}"
  | .cycleOverflow base delta => s!"cycle counter overflow ({base} + {delta})"

inductive Event where
  | advance (delta : Cycle)
  | setCycle (value : Cycle)
  | introduce (id : InstrId)
  | label (id : InstrId) (text : String)
  | enter (id : InstrId) (relative : Cycle) (stage : String)
deriving DecidableEq, Repr

/-- reads an integer field; blank characters around the number are dropped -/
def IntField.read (field : IntField) (cs : List Char) : Except LineError Int64 :=
  match Decimal.readWord (Text.trim cs) with
  | .ok n => .ok n
  | .error reason => .error (.invalidInteger field (String.ofList (Text.trim cs)) reason)

namespace Event

/-- the text of a label: the fields after the id and the thread, one space between them -/
def labelText (rest : List (List Char)) : String :=
  String.ofList ([' '].intercalate (rest.drop 1))

/-- decodes the fields of an event: the first argument and those after it -/
def decode (code : EventCode) (first : List Char) (rest : List (List Char)) :
    Except LineError Event :=
  match code with
  | .advance => do return .advance (← IntField.cycleDelta.read first)
  | .setCycle => do return .setCycle (← IntField.cycleValue.read first)
  | .introduce => do return .introduce (← IntField.instructionId.read first)
  | .label => do return .label (← IntField.instructionId.read first) (labelText rest)
  | .enter =>
    match rest with
    | relative :: stage :: _ => do
      let id ← IntField.instructionId.read first
      let relative ← IntField.relativeCycle.read relative
      return .enter id relative (String.ofList stage)
    | _ => .error (.missingField .enter 3 (1 + rest.length))

def ofFields : List (List Char) → Except LineError (Option Event)
  | field :: first :: rest =>
    match EventCode.ofField? field with
    | some code => (decode code first rest).map some
    | none => .ok none
  | _ => .ok none

/-- decodes a line; `none` if it carries no event -/
def parse (line : String) : Except LineError (Option Event) :=
  ofFields ((Text.trim line.toList).splitOn '\t')

end Event

/-! ## codes -/

theorem EventCode.ofField?_text (code : EventCode) : ofField? code.text.toList = some code := by
  cases code <;> decide

theorem EventCode.ofField?_eq_some_iff {cs : List Char} {code : EventCode} :
    ofField? cs = some code ↔ cs = code.text.toList := by
  constructor
  · intro h
    unfold ofField? at h
    split at h <;> cases h <;> decide
  · rintro rfl
    exact ofField?_text code

/-! ## lines without an event -/

theorem Event.parse_eq_of_trim_eq {s t : String}
    (h : Text.trim s.toList = Text.trim t.toList) : Event.parse s = Event.parse t := by
  rw [Event.parse, Event.parse, h]

theorem Event.ofFields_single (field : List Char) : Event.ofFields [field] = .ok none := rfl

example : Event.parse "S\t1\tx" = .error (.missingField .enter 3 2) := by cbv
example : Event.parse "L\t7\t0\ta\tb\n" = .ok (some (.label 7 "a b")) := by cbv

end PipeTrace
