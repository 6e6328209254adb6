import PipeTrace.Content

/-!
# Directory trees

A `FileTree` is a directory with files and directories below it, given by their paths from the
root. `FileTree.openFile` follows a path component by component.

* An empty component or `.` stays in a directory, `..` leaves it; a file can be none of the places
  on the way, nor the place before a slash at the end.
* Outside the root, which `..` and absolute paths reach, nothing is known but that there are
  directories.
* Paths and names have a greatest length, in bytes; no path holds U+0000.
* A directory opens like a file, but cannot be read.
-/

set_option autoImplicit false

namespace PipeTrace

inductive Entry where
  | file (bytes : List UInt8)
  | directory
deriving DecidableEq, Repr

/-- a directory tree: what stands at the lists of names from the root; of two entries with one list
the first counts -/
structure FileTree where
  entries : List (List String × Entry) := []
deriving DecidableEq, Repr

namespace FileTree

def components (path : String) : List String := (path.toList.splitOn '/').map String.ofList

/-- the names from the root after one more component; `..` takes the last name away -/
def descend (names : List String) (name : String) : List String :=
  if name = ".." then names.dropLast else names ++ [name]

/-- adds an entry over what may stand at its path; the directories on the way come with it -/
def insert (t : FileTree) (path : String) (entry : Entry) : FileTree :=
  let stations := ((components path).filter fun c => c ≠ "" ∧ c ≠ ".").scanl descend []
  { entries := (stations.getLastD [], entry) :: stations.dropLast.map (·, .directory) ++ t.entries }

def entry? (t : FileTree) (names : List String) : Option Entry :=
  if names = [] then some .directory else (t.entries.find? (·.1 = names)).map Prod.snd

/-- a place that a path leads to -/
inductive Place where
  | inside (names : List String)
  | outside
deriving DecidableEq, Repr

def maxNameLength : Nat := 255

def maxPathLength : Nat := 4095

/-- goes on from a place by one component -/
def step (t : FileTree) : Place → String → Except Cause Place
  | .outside, name =>
    if name ∈ ["", ".", ".."] then .ok .outside
    else if maxNameLength < name.utf8ByteSize then .error .nameTooLong
    else .error .noSuchFile
  | .inside names, name =>
    if t.entry? names ≠ some .directory then .error .notADirectory
    else if name ∈ ["", "."] then .ok (.inside names)
    else if names = [] ∧ name = ".." then .ok .outside
    else if maxNameLength < name.utf8ByteSize then .error .nameTooLong
    else if t.entry? (descend names name) = none then .error .noSuchFile
    else .ok (.inside (descend names name))

/-- the place where a path begins -/
def origin (path : String) : Place :=
  if path.toList.head? = some '/' then .outside else .inside []

/-- the content of a directory: nothing can be read -/
def directoryContent : Content := { bytes := [], fault := some .isADirectory }

def openFile (t : FileTree) (path : String) : Except Cause Content :=
  if path.contains '\x00' then .error .nulInName
  else if path = "" then .error .noSuchFile
  else if maxPathLength < path.utf8ByteSize then .error .nameTooLong
  else
    match (components path).foldlM t.step (origin path) with
    | .error cause => .error cause
    | .ok .outside => .ok directoryContent
    | .ok (.inside names) =>
      match t.entry? names with
      | some (.file bytes) => .ok { bytes }
      | _ => .ok directoryContent

end FileTree

end PipeTrace
