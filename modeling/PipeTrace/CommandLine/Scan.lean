import PipeTrace.CommandLine.Parser

/-!
# Reading the command line

The arguments are read from the left, and the first thing that is wrong ends the reading.

* `--name` and `--name=value` are options by their full names, `-x` options by one letter.
  Letters of switches can be joined; `-s` takes the rest of its argument as value, without one `=`
  in front.
* An option that needs a value and has none attached waits for the next argument that does not
  look like an option; `-` and the empty text do not.
* Everything else is a file, and after `--` everything is.

A value that stands alone, a file too, waits to be settled until the next option or file comes or
the arguments end; only then it is checked.  So an unknown option, a value for a switch and a
third file are reported even if the value that waits is wrong.

This is one parser that keeps the rules of `Parser.Laws`.  It also fixes what these leave open:
which mistake of a wrong command line is the one that is reported.
-/

set_option autoImplicit false

namespace PipeTrace.CommandLine

structure Scan where
  left : Option String := none
  right : Option String := none
  stages : List String := []
  color : Option ColorChoice := none
  metrics : Bool := false
  verbose : Bool := false
  /-- the argument that is not settled yet, and its value if that was met -/
  waiting : Option (Param × Option String) := none
deriving DecidableEq, Repr

def longOption? (name : List Char) : Option (Switch ⊕ Param) :=
  match Switch.all.find? (·.long.toList = name) with
  | some s => some (.inl s)
  | none => (Param.all.find? (·.long?.map String.toList = some name)).map .inr

def shortOption? (letter : Char) : Option (Switch ⊕ Param) :=
  match Switch.all.find? (·.short? = some letter) with
  | some s => some (.inl s)
  | none => (Param.all.find? (·.short? = some letter)).map .inr

namespace Scan

def fail {α : Type} (error : UsageError) : Except Stop α := .error (.usage error)

def has (s : Scan) : Param → Bool
  | .stages => s.stages ≠ []
  | .color => s.color.isSome
  | .file .left => s.left.isSome
  | .file .right => s.right.isSome

def give (s : Scan) : Param → String → Scan
  | .stages, value => { s with stages := s.stages ++ [value] }
  | .color, value => { s with color := ColorChoice.ofName? value }
  | .file .left, value => { s with left := some value }
  | .file .right, value => { s with right := some value }

/-- gives a parameter its value, if it may have one and this is one -/
def assign (s : Scan) (param : Param) (value : String) : Except Stop Scan :=
  if param.repeats = false ∧ s.has param = true then fail (.repeatedParam param)
  else if param.allows value = true then .ok (s.give param value)
  else if value = "" then fail (.valueRequired param)
  else fail (.invalidValue param value)

def settle (s : Scan) : Except Stop Scan :=
  match s.waiting with
  | none => .ok s
  | some (param, none) => fail (.valueRequired param)
  | some (param, some value) => { s with waiting := none }.assign param value

/-- lets an argument wait, with its value if that was met -/
def await (s : Scan) (param : Param) (value : Option String) : Except Stop Scan := do
  return { ← s.settle with waiting := some (param, value) }

/-- an option with the value attached to it -/
def attached (s : Scan) (param : Param) (value : String) : Except Stop Scan := do
  (← s.settle).assign param value

def switch (s : Scan) (sw : Switch) : Except Stop Scan := do
  let s ← s.settle
  match sw with
  | .help => .error .help
  | .version => .error .version
  | .metrics =>
    if s.metrics then fail (.repeatedSwitch .metrics) else .ok { s with metrics := true }
  | .verbose =>
    if s.verbose then fail (.repeatedSwitch .verbose) else .ok { s with verbose := true }

/-- an option by its long name, which ends at the first `=` -/
def long (s : Scan) (body : List Char) : Except Stop Scan :=
  let name := body.takeWhile (· ≠ '=')
  match longOption? name, body.drop name.length with
  | none, _ => fail (.unexpectedArgument ("--" ++ String.ofList name))
  | some (.inl sw), [] => s.switch sw
  | some (.inl sw), _ :: value => fail (.unexpectedValue sw (String.ofList value))
  | some (.inr param), [] => s.await param none
  | some (.inr param), _ :: value => s.attached param (String.ofList value)

def short (s : Scan) : List Char → Except Stop Scan
  | [] => .ok s
  | letter :: rest =>
    match shortOption? letter, rest with
    | none, _ => fail (.unexpectedArgument (String.ofList ['-', letter]))
    | some (.inl sw), letters => do (← s.switch sw).short letters
    | some (.inr param), [] => s.await param none
    | some (.inr param), '=' :: value => s.attached param (String.ofList value)
    | some (.inr param), value => s.attached param (String.ofList value)

def hasFile (s : Scan) (side : Side) : Bool :=
  s.has (.file side) || s.waiting.any (·.1 = .file side)

/-- the place of the next file, the left one first -/
def place? (s : Scan) : Option Side := [Side.left, .right].find? fun side => !s.hasFile side

def file (s : Scan) (name : String) : Except Stop Scan :=
  match s.place? with
  | some side => s.await (.file side) (some name)
  | none => fail (.unexpectedArgument name)

/-- an argument that does not look like an option -/
def value (s : Scan) (arg : String) : Except Stop Scan :=
  match s.waiting with
  | some (param, none) => .ok { s with waiting := some (param, some arg) }
  | _ => s.file arg

def step (s : Scan) (arg : String) : Except Stop Scan :=
  match arg.toList with
  | '-' :: '-' :: body => s.long body
  | '-' :: letter :: letters => s.short (letter :: letters)
  | _ => s.value arg

def scan (s : Scan) : List String → Except Stop Scan
  | [] => s.settle
  | arg :: args =>
    if arg = "--" then do (← args.foldlM file s).settle
    else do (← s.step arg).scan args

/-- what was read, if both files were given -/
def finish (s : Scan) : Except Stop Matches :=
  match s.left, s.right with
  | some left, some right =>
    .ok { files := { left, right }, stages := s.stages, color := s.color, metrics := s.metrics,
          verbose := s.verbose }
  | _, _ => fail .missingFiles

def parser : Parser := fun args => do (← Scan.scan {} args).finish

end Scan

def parse : List String → Except Stop Options := parseWith Scan.parser

/-! ## which of two faults is reported -/

example : parse ["--color", "bad", "--unknown"] =
    .error (.usage (.unexpectedArgument "--unknown")) := by cbv
example : parse ["--color=bad", "-h"] = .error (.usage (.invalidValue .color "bad")) := by cbv
example : parse ["-s", "-v", "a", "b"] = .error (.usage (.valueRequired .stages)) := by cbv

end PipeTrace.CommandLine
