import PipeTrace.Program

/-!
# The command line program

Runs the program on the system, which reads a file when the program opens it, and writes what the
program leaves behind.
-/

set_option autoImplicit false

namespace PipeTrace

def Cause.ofSystem : IO.Error → Cause
  | .noFileOrDirectory _ _ _ => .noSuchFile
  | .inappropriateType _ code details =>
    if code = 20 then .notADirectory else if code = 21 then .isADirectory else .other details
  | .invalidArgument _ code details => if code = 36 then .nameTooLong else .other details
  | e => .other (toString e)

/-- opens a file and reads it as far as possible -/
def readFile (path : String) : IO (Except Cause Content) := do
  match ← (IO.FS.Handle.mk path .read).toBaseIO with
  | .error e => return .error (.ofSystem e)
  | .ok handle =>
    match ← handle.readBinToEnd.toBaseIO with
    | .error e => return .ok { bytes := [], fault := some (.ofSystem e) }
    | .ok bytes => return .ok { bytes := bytes.data.toList }

/-- the system itself; a file is read when it is opened, and the time is taken from there -/
def Host.ofSystem : IO (Host IO) := do
  let opened ← IO.mkRef 0
  return { openFile := fun path => do
             opened.set (← IO.monoNanosNow)
             readFile path
           seconds := fun _ => do
             return ((← IO.monoNanosNow) - (← opened.get)).toFloat / 1e9 }

end PipeTrace

def main (args : List String) : IO UInt32 := do
  let terminal ← (← IO.getStdout).isTty
  let outcome ← PipeTrace.Program.runOn (← PipeTrace.Host.ofSystem) terminal
    PipeTrace.CommandLine.Scan.parser args
  IO.print outcome.stdout
  IO.eprint outcome.stderr
  return .ofNat outcome.code
