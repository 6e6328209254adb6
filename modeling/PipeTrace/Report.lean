import PipeTrace.Comparison
import PipeTrace.Styled
import PipeTrace.Text.Column

/-!
# The report of a comparison

The report names the two traces and consists of

* `Report.stages`       the stages that are checked;
* `Report.parsing`      one line before a trace is loaded;
* `Report.counts`       the sizes of the two traces;
* `Report.comparison`   a paragraph for each missing instruction and each pair of labels, one
  block for the first divergence if it is about stages, and the summary.
-/

set_option autoImplicit false

namespace PipeTrace

structure Names where
  left : String
  right : String
deriving DecidableEq, Repr

def Names.of (names : Names) : Side → String
  | .left => names.left
  | .right => names.right

namespace Report

open Fragment

def doubleRule : String := "".pushn '=' 70

def singleRule : String := "".pushn '-' 70

def blankLine : List Fragment := plainLine ""

def stages (s : StageSet) : List Fragment :=
  plainLine ("Checking stages: " ++ s.text) ++ blankLine

def parsing (name : String) : List Fragment := plainLine s!"Parsing {name}..."

def count (name : String) (size : Nat) : List Fragment :=
  plainLine s!"Found {size} instructions in {name}"

def counts (names : Names) (left right : Nat) : List Fragment :=
  blankLine ++ count names.left left ++ count names.right right

def missing (name : String) (id : InstrId) : List Fragment :=
  blankLine ++ plainLine s!"Instruction {id} missing in {name}"

def labelMismatch (names : Names) (id : InstrId) (left right : String) : List Fragment :=
  blankLine
    ++ line [.styled .caution "Warning:", .plain s!" Instruction {id} has different labels:"]
    ++ plainLine s!"  {names.left}: {left}"
    ++ plainLine s!"  {names.right}: {right}"

def cycleText : Option Cycle → String
  | none => "N/A"
  | some cycle => toString cycle

def columns (stage left right : String) : String :=
  Text.alignLeft 10 stage ++ " " ++ Text.alignRight 20 left ++ " " ++ Text.alignRight 20 right

/-- the mark at the end of a row whose cycles differ -/
def marker (delta : StageDelta) : List Fragment :=
  if delta.left = delta.right then [] else [.styled .marker " <-- DIFF"]

def row (delta : StageDelta) : List Fragment :=
  line (.plain (columns delta.stage (cycleText delta.left) (cycleText delta.right)) :: marker delta)

def labelLine (label : String) : List Fragment :=
  if label = "" then [] else plainLine ("Instruction:    " ++ label)

/-- the block about the stages of the first instruction that differs -/
def firstDifference (names : Names) (id : InstrId) (label : String) (deltas : List StageDelta) :
    List Fragment :=
  blankLine
    ++ plainLine doubleRule
    ++ line [.styled .headline "FIRST DIFFERENCE FOUND"]
    ++ plainLine doubleRule
    ++ plainLine s!"Instruction ID: {id}"
    ++ labelLine label
    ++ blankLine
    ++ plainLine "Stage timing differences:"
    ++ plainLine (columns "Stage" names.left names.right)
    ++ plainLine singleRule
    ++ deltas.flatMap row
    ++ plainLine doubleRule
    ++ blankLine

def verdict : Option InstrId → List Fragment
  | some id => plainLine s!"  First difference at instruction ID: {id}"
  | none => line [.plain "  ", .styled .success "No differences found!"]

def summary (c : Comparison) : List Fragment :=
  blankLine
    ++ line [.styled .heading "Summary:"]
    ++ plainLine s!"  Total instructions checked: {c.checked}"
    ++ plainLine s!"  Instructions with differences: {c.divergent}"
    ++ verdict c.firstDivergence

/-- what is written about one finding; stages are shown for the first instruction that differs -/
def finding (names : Names) (first : Option InstrId) : Finding → List Fragment
  | .missing id side => missing (names.of side) id
  | .labelMismatch id left right => labelMismatch names id left right
  | .stageTiming id label deltas =>
    if first = some id then firstDifference names id label deltas else []

def comparison (names : Names) (c : Comparison) : List Fragment :=
  c.findings.flatMap (finding names c.firstDivergence) ++ summary c

end Report

end PipeTrace
