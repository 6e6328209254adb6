/-!
# Failures

A `Cause` is why the system refuses to open, read or write; a `Failure` says what could not be
done for that reason, and where.  Each failure has a message, an exit code, and the text of its
cause.
-/

set_option autoImplicit false

namespace PipeTrace

/-- why an operation on a file or on the output is refused -/
inductive Cause where
  | noSuchFile
  | notADirectory
  | isADirectory
  | nameTooLong
  | nulInName
  | malformedText
  | sinkFull
  | other (text : String)
deriving DecidableEq, Repr

def Cause.text : Cause → String
  | .noSuchFile => "No such file or directory (os error 2)"
  | .notADirectory => "Not a directory (os error 20)"
  | .isADirectory => "Is a directory (os error 21)"
  | .nameTooLong => "File name too long (os error 36)"
  | .nulInName => "file name contained an unexpected NUL byte"
  | .malformedText => "stream did not contain valid UTF-8"
  | .sinkFull => "sink full"
  | .other text => text

/-- why a comparison ends without a verdict -/
inductive Failure where
  | cannotOpen (path : String) (cause : Cause)
  | cannotRead (path : String) (line : Nat) (cause : Cause)
  | cannotWrite (cause : Cause)
deriving DecidableEq, Repr

namespace Failure

def cause : Failure → Cause
  | .cannotOpen _ cause => cause
  | .cannotRead _ _ cause => cause
  | .cannotWrite cause => cause

def message : Failure → String
  | .cannotOpen path cause => s!"cannot open {path}: {cause.text}"
  | .cannotRead path line cause => s!"read error in {path} at line {line}: {cause.text}"
  | .cannotWrite cause => s!"failed to write report: {cause.text}"

/-- the exit code: 2 if a file cannot be opened, 3 for everything else -/
def exitCode : Failure → Nat
  | .cannotOpen _ _ => 2
  | .cannotRead _ _ _ => 3
  | .cannotWrite _ => 3

end Failure

end PipeTrace
