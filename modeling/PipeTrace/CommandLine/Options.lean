import PipeTrace.Report
import PipeTrace.Text.Plain

/-!
# Options of the command line

`Options` is what a command line asks for; `UsageError` is why one cannot be understood.

The arguments are declared here: two files and two options with a value (`Param`), and four options
without one (`Switch`), with their names and with the values that they take.
-/

set_option autoImplicit false

namespace PipeTrace.CommandLine

/-- when the report is written in colour -/
inductive ColorChoice where
  | auto
  | always
  | never
deriving DecidableEq, Repr

def ColorChoice.name : ColorChoice → String
  | .auto => "auto"
  | .always => "always"
  | .never => "never"

def ColorChoice.ofName? (name : String) : Option ColorChoice :=
  [ColorChoice.auto, .always, .never].find? (·.name = name)

/-- the choice itself; `none` if it depends on the terminal -/
def ColorChoice.enabled? : ColorChoice → Option Bool
  | .auto => none
  | .always => some true
  | .never => some false

/-- the options without a value -/
inductive Switch where
  | metrics
  | verbose
  | help
  | version
deriving DecidableEq, Repr

namespace Switch

def all : List Switch := [metrics, verbose, help, version]

def long : Switch → String
  | metrics => "metrics"
  | verbose => "verbose"
  | help => "help"
  | version => "version"

def short? : Switch → Option Char
  | metrics => none
  | verbose => some 'v'
  | help => some 'h'
  | version => some 'V'

def display (s : Switch) : String := "--" ++ s.long

end Switch

/-- the arguments that are values: those of the options and the two files -/
inductive Param where
  | stages
  | color
  | file (side : Side)
deriving DecidableEq, Repr

namespace Param

def all : List Param := [stages, color, file .left, file .right]

/-- a file has no name, it is known by its place -/
def long? : Param → Option String
  | stages => some "stages"
  | color => some "color"
  | file _ => none

def short? : Param → Option Char
  | stages => some 's'
  | color => none
  | file _ => none

def valueName : Param → String
  | stages => "STAGES"
  | color => "COLOR"
  | file .left => "FILE1"
  | file .right => "FILE2"

/-- whether a value may follow an earlier one; a parameter that does not repeat has one value -/
def repeats : Param → Bool
  | stages => true
  | color => false
  | file _ => false

def allows : Param → String → Bool
  | stages, _ => true
  | color, value => (ColorChoice.ofName? value).isSome
  | file _, value => value ≠ ""

def display (p : Param) : String :=
  match p.long? with
  | some name => "--" ++ name ++ " <" ++ p.valueName ++ ">"
  | none => "<" ++ p.valueName ++ ">"

end Param

/-- the ways to write an option with the given names -/
def spellings (long? : Option String) (short? : Option Char) : List String :=
  long?.toList.map ("--" ++ ·) ++ short?.toList.map fun letter => String.ofList ['-', letter]

def Param.spellings (p : Param) : List String := CommandLine.spellings p.long? p.short?

def Switch.spellings (s : Switch) : List String := CommandLine.spellings (some s.long) s.short?

inductive UsageError where
  | unexpectedArgument (arg : String)
  | unexpectedValue (switch : Switch) (value : String)
  | repeatedSwitch (switch : Switch)
  | repeatedParam (param : Param)
  | valueRequired (param : Param)
  | invalidValue (param : Param) (value : String)
  | missingFiles
  | noStages
deriving DecidableEq, Repr

/-- the wording of a usage error; arguments are shown without control sequences -/
def UsageError.message : UsageError → String
  | .unexpectedArgument arg => s!"unexpected argument '{Text.plain arg}' found"
  | .unexpectedValue switch value =>
    s!"unexpected value '{Text.plain value}' for '{switch.display}' found; no more were expected"
  | .repeatedSwitch switch => s!"the argument '{switch.display}' cannot be used multiple times"
  | .repeatedParam param => s!"the argument '{param.display}' cannot be used multiple times"
  | .valueRequired param => s!"a value is required for '{param.display}' but none was supplied"
  | .invalidValue param value => s!"invalid value '{Text.plain value}' for '{param.display}'"
  | .missingFiles => "the following required arguments were not provided:"
  | .noStages => "--stages must name at least one stage"

def UsageError.report (e : UsageError) : String := "error: " ++ e.message ++ "\n"

def UsageError.exitCode : Nat := 2

structure Options where
  files : Names
  /-- the values that name stages, in the order in which they were given -/
  stages : List String := []
  color : ColorChoice := .auto
  metrics : Bool := false
  verbose : Bool := false
deriving DecidableEq, Repr

def Options.stageSet (o : Options) : Except UsageError StageSet :=
  match StageSet.ofArgs? o.stages with
  | some stages => .ok stages
  | none => .error .noStages

theorem ColorChoice.ofName?_name (c : ColorChoice) : ofName? c.name = some c := by
  cases c <;> decide

end PipeTrace.CommandLine
