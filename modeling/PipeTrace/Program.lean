import PipeTrace.CommandLine.Scan
import PipeTrace.CommandLine.Help
import PipeTrace.Session

/-!
# The program

`Program.runOn` is the program on a system that opens files when it is asked to: from the arguments
to the exit code and to what is written to the standard output and to the standard error.
`Program.run` is the same as a function of an environment whose answers are known.

The report goes to the standard output.  The standard error takes the log, then the failure that
ended the comparison, then the metrics if they were asked for.
-/

set_option autoImplicit false

namespace PipeTrace

/-- what the program looks at besides its arguments -/
structure Environment where
  openFile : Opener
  /-- the time that loading takes on either side -/
  seconds : Side → Float := fun _ => 0.0
  /-- the standard output is a terminal that shows colours -/
  terminal : Bool := false
  parser : CommandLine.Parser := CommandLine.Scan.parser

/-- what a run of the program leaves behind -/
structure Outcome where
  code : Nat
  stdout : String := ""
  stderr : String := ""
deriving DecidableEq, Repr

namespace Program

def refuse (e : CommandLine.UsageError) : Outcome where
  code := CommandLine.UsageError.exitCode
  stderr := e.report

/-- the end of a run whose command line asks for no comparison -/
def stopped : CommandLine.Stop → Outcome
  | .help => { code := 0, stdout := CommandLine.helpText }
  | .version => { code := 0, stdout := CommandLine.versionText }
  | .usage e => refuse e

/-- what is said about a failure; a file that cannot be opened speaks for itself -/
def failureText : Failure → String
  | .cannotOpen path cause => s!"✗ Error: {(Failure.cannotOpen path cause).message}\n"
  | f => s!"✗ Unexpected error: {f.message}\n  caused by: {f.cause.text}\n"

def logText (verbose : Bool) (entries : List LogEntry) : String :=
  String.join ((entries.filter fun e => verbose || !e.isDetail).map fun e => e.text ++ "\n")

def task (terminal : Bool) (options : CommandLine.Options) (stages : StageSet) : Task where
  paths := options.files
  stages := stages
  color := options.color.enabled?.getD terminal

/-- the end of a run that compared two files -/
def concluded (options : CommandLine.Options) : Except Failure Nat × Session → Outcome
  | (result, session) =>
    let (code, failure) := match result with
      | .ok code => (code, "")
      | .error f => (f.exitCode, failureText f)
    { code
      stdout := session.sink.text
      stderr := logText options.verbose session.log ++ failure ++
        if options.metrics then session.metrics.summary else "" }

def runOn {m : Type → Type} [Monad m] (host : Host m) (terminal : Bool)
    (parser : CommandLine.Parser) (args : List String) : m Outcome :=
  match CommandLine.parseWith parser args with
  | .error stop => return stopped stop
  | .ok options =>
    match options.stageSet with
    | .error e => return refuse e
    | .ok stages =>
      return concluded options (← (Session.compareOn host (task terminal options stages)).run {})

def run (env : Environment) (args : List String) : Outcome :=
  Id.run (runOn { openFile := env.openFile, seconds := env.seconds } env.terminal env.parser args)

end Program

end PipeTrace
