import PipeTrace.CommandLine.Options

/-!
# Parsers of the command line

The arguments are read by a parser that knows how they are declared.  The program does not depend on
how that parser works but on the rules that it follows:

* `Matches`        what a parser finds on a command line;
* `Parser.Laws`    the rules: where files and options may stand, and how they are written;
* `parseWith`      the options that a parser makes of arguments.

Nothing is assumed of arguments that break the rules, only that a parser says so.
-/

set_option autoImplicit false

namespace PipeTrace.CommandLine

/-- why the reading of a command line ends early -/
inductive Stop where
  | help
  | version
  | usage (error : UsageError)
deriving DecidableEq, Repr

structure Matches where
  files : Names
  stages : List String := []
  /-- absent if no colour was given -/
  color : Option ColorChoice := none
  metrics : Bool := false
  verbose : Bool := false
deriving DecidableEq, Repr

abbrev Parser := List String → Except Stop Matches

inductive Use where
  | value (param : Param) (text : String)
  | switch (switch : Switch)
deriving DecidableEq, Repr

/-- an argument that cannot be taken for an option -/
def IsValue (arg : String) : Prop := arg.toList.head? ≠ some '-'

instance (arg : String) : Decidable (IsValue arg) := inferInstanceAs (Decidable (_ ≠ _))

/-- the arguments that write a use of an option -/
inductive Use.Writes : Use → List String → Prop
  | attached {param : Param} {name text : String} (h : param.long? = some name) :
    Writes (.value param text) ["--" ++ name ++ "=" ++ text]
  | separate {param : Param} {option text : String} (h : option ∈ param.spellings)
    (htext : IsValue text) : Writes (.value param text) [option, text]
  | switch {s : Switch} {option : String} (h : option ∈ s.spellings) : Writes (.switch s) [option]

namespace Matches

def has (m : Matches) : Param → Bool
  | .stages => m.stages ≠ []
  | .color => m.color.isSome
  | .file _ => true

/-- the switch is not on; help and version are never off, they end the reading -/
def isOff (m : Matches) : Switch → Bool
  | .metrics => !m.metrics
  | .verbose => !m.verbose
  | .help => false
  | .version => false

/-- one more use of an option is in order -/
def Admits (m : Matches) : Use → Prop
  | .value param text =>
    param.allows text = true ∧ (param.repeats = true ∨ m.has param = false)
  | .switch s => m.isOff s = true

/-- the matches with one more use of an option, before all others -/
def add (m : Matches) : Use → Matches
  | .value .stages text => { m with stages := text :: m.stages }
  | .value .color text => { m with color := ColorChoice.ofName? text }
  | .value (.file _) _ => m
  | .switch .metrics => { m with metrics := true }
  | .switch .verbose => { m with verbose := true }
  | .switch .help => m
  | .switch .version => m

end Matches

/-- the rules of the library that reads the arguments, for the arguments that are declared -/
structure Parser.Laws (parser : Parser) : Prop where
  /-- values that belong to no option are the files in their order; all else is absent -/
  files : ∀ a b, IsValue a → IsValue b → a ≠ "" → b ≠ "" →
    parser [a, b] = .ok { files := ⟨a, b⟩ }
  /-- after two dashes every argument is a value -/
  escape : ∀ a b, a ≠ "" → b ≠ "" → parser ["--", a, b] = .ok { files := ⟨a, b⟩ }
  /-- a value may be attached to the long name of its option -/
  attached : ∀ param name text rest m, param.long? = some name → parser rest = .ok m →
    m.Admits (.value param text) →
    parser (("--" ++ name ++ "=" ++ text) :: rest) = .ok (m.add (.value param text))
  /-- a value may follow its option -/
  separate : ∀ param option text rest m, option ∈ param.spellings → IsValue text →
    parser rest = .ok m → m.Admits (.value param text) →
    parser (option :: text :: rest) = .ok (m.add (.value param text))
  /-- a switch stands alone -/
  switch : ∀ s option rest m, option ∈ s.spellings → parser rest = .ok m →
    m.Admits (.switch s) → parser (option :: rest) = .ok (m.add (.switch s))
  /-- what may stand before files may stand between and after them as well -/
  mixed : ∀ use args files rest m, Use.Writes use args → (∀ f ∈ files, IsValue f ∧ f ≠ "") →
    parser (files ++ rest) = .ok m → m.Admits use →
    parser (files ++ args ++ rest) = parser (args ++ files ++ rest)

/-- the options that were found; without a choice the terminal decides on colours -/
def Options.ofMatches (m : Matches) : Options where
  files := m.files
  stages := m.stages
  color := m.color.getD .auto
  metrics := m.metrics
  verbose := m.verbose

def parseWith (parser : Parser) (args : List String) : Except Stop Options := do
  return .ofMatches (← parser args)

end PipeTrace.CommandLine
