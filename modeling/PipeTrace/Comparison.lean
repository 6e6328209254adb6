import PipeTrace.Trace
import PipeTrace.StageSet

/-!
# Comparing two traces

`Trace.compare` walks the ids of both traces in ascending order and notes a `Finding` for

* an instruction that one of the traces lacks;
* two labels that differ, both of them not empty;
* the stages of a set that the instruction entered at different cycles.

The first and the last kind are divergences; labels never bear on the verdict.  A `Comparison`
holds the findings together with the counts that are reported.
-/

set_option autoImplicit false

namespace PipeTrace

inductive Side where
  | left
  | right
deriving DecidableEq, Repr

def Side.other : Side → Side
  | .left => .right
  | .right => .left

def Side.name : Side → String
  | .left => "left"
  | .right => "right"

/-- a stage and the cycles at which either trace entered it -/
structure StageDelta where
  stage : String
  left : Option Cycle
  right : Option Cycle
deriving DecidableEq, Repr

/-- something noticed about an instruction -/
inductive Finding where
  /-- only one trace has the instruction -/
  | missing (id : InstrId) (missingFrom : Side)
  /-- both traces label the instruction, differently -/
  | labelMismatch (id : InstrId) (left right : String)
  /-- the stages of the instruction that differ, under the label of the left trace -/
  | stageTiming (id : InstrId) (label : String) (deltas : List StageDelta)
deriving DecidableEq, Repr

namespace Finding

inductive Kind where
  | presence
  | label
  | stageTiming
deriving DecidableEq, Repr

def Kind.name : Kind → String
  | .presence => "presence"
  | .label => "label"
  | .stageTiming => "stage_timing"

def id : Finding → InstrId
  | .missing id _ => id
  | .labelMismatch id _ _ => id
  | .stageTiming id _ _ => id

def kind : Finding → Kind
  | .missing _ _ => .presence
  | .labelMismatch _ _ _ => .label
  | .stageTiming _ _ _ => .stageTiming

/-- the finding counts as a difference; a label mismatch is advisory -/
def isDivergence (f : Finding) : Bool := f.kind ≠ .label

end Finding

structure Comparison where
  /-- the number of instructions in either trace -/
  checked : Nat
  /-- the number of instructions that differ -/
  divergent : Nat := 0
  /-- the least instruction that differs -/
  firstDivergence : Option InstrId := none
  findings : List Finding := []
deriving DecidableEq, Repr

namespace Comparison

/-- notes a finding; a divergence is counted, and the first of them remembered -/
def push (c : Comparison) (f : Finding) : Comparison where
  checked := c.checked
  divergent := if f.isDivergence then c.divergent + 1 else c.divergent
  firstDivergence := if f.isDivergence then c.firstDivergence.or (some f.id) else c.firstDivergence
  findings := c.findings ++ [f]

def isIdentical (c : Comparison) : Bool := c.firstDivergence.isNone

/-- the exit code of the verdict: 0 if no instruction differs, 1 otherwise -/
def exitCode (c : Comparison) : Nat := if c.isIdentical then 0 else 1

end Comparison

namespace Record

/-- the stages of the set whose cycles differ; a stage that was not entered differs from every
cycle -/
def deltas (l r : Record) (stages : StageSet) : List StageDelta :=
  stages.toList.filterMap fun stage =>
    if l.stage? stage = r.stage? stage then none
    else some { stage, left := l.stage? stage, right := r.stage? stage }

end Record

namespace Trace

/-- the ids of both traces in ascending order, each of them once -/
def unionIds (l r : Trace) : List InstrId := (Std.ExtTreeSet.ofList (l.ids ++ r.ids)).toList

/-- does something about each finding on one instruction: a trace that lacks it is noted and
nothing else; otherwise the labels are compared first, then the stages -/
def visitWith {σ : Type} (note : σ → Finding → σ) (l r : Trace) (stages : StageSet) (s : σ)
    (id : InstrId) : σ :=
  match l.find? id, r.find? id with
  | some a, some b =>
    let s :=
      if a.label ≠ "" ∧ b.label ≠ "" ∧ a.label ≠ b.label then
        note s (.labelMismatch id a.label b.label)
      else s
    if a.deltas b stages = [] then s else note s (.stageTiming id a.label (a.deltas b stages))
  | none, _ => note s (.missing id .left)
  | _, none => note s (.missing id .right)

def compare (l r : Trace) (stages : StageSet) : Comparison :=
  let ids := l.unionIds r
  ids.foldl (visitWith Comparison.push l r stages) { checked := ids.length }

/-! ## the walk over the ids -/

theorem mem_unionIds {l r : Trace} {id : InstrId} :
    id ∈ l.unionIds r ↔ (l.find? id).isSome ∨ (r.find? id).isSome := by
  simp [unionIds, Std.ExtTreeSet.mem_ofList, mem_ids]

theorem ordered_unionIds (l r : Trace) :
    (l.unionIds r).Pairwise fun a b => Ord.compare a b = .lt :=
  Std.ExtTreeSet.ordered_toList

end Trace

end PipeTrace
