import PipeTrace.Failure

/-!
# The content of a file

`Content` is what reading an opened file yields: bytes, and the cause if reading stops before the
end. `Content.rawLines` cuts the bytes into lines.

* A line ends after a newline byte, which is not part of it; one carriage return right before that
  byte is dropped too.
* Bytes after the last newline are a line of their own, kept whole.  There is no empty line after
  a last newline, and no line of bytes at which reading stopped.
-/

set_option autoImplicit false

namespace PipeTrace

/-- what reading an opened file yields -/
structure Content where
  bytes : List UInt8
  /-- why reading stops after these bytes; `none` at the end of the file -/
  fault : Option Cause := none
deriving DecidableEq, Repr

def newline : UInt8 := 0x0A

/-- the byte that is dropped right before a newline -/
def carriageReturn : UInt8 := 0x0D

def dropReturn (raw : List UInt8) : List UInt8 :=
  if raw.getLast? = some carriageReturn then raw.dropLast else raw

namespace Content

def endedLines (c : Content) : List (List UInt8) :=
  (c.bytes.splitOn newline).dropLast.map dropReturn

/-- the bytes after the last newline -/
def remainder (c : Content) : List UInt8 :=
  (c.bytes.splitOn newline).getLast (by simp)

def rawLines (c : Content) : List (List UInt8) :=
  if c.remainder = [] ∨ c.fault ≠ none then c.endedLines else c.endedLines ++ [c.remainder]

end Content

end PipeTrace
