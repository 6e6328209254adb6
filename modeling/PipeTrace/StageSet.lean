import Std.Data.ExtTreeSet
import PipeTrace.Text.Blank

/-!
# Sets of stages

A `StageSet` names the pipeline stages that are compared.  Its members are kept in the order of
their code points, so that every listing of the set is in one order.

* `StageSet.standard`   the stages compared when none are named;
* `StageSet.ofArgs?`    the set named by a list of texts, each a comma-separated list of stages;
* `StageSet.text`       the members, a comma and a space between them.
-/

set_option autoImplicit false

namespace PipeTrace

/-- the pipeline stages that are compared -/
structure StageSet where
  members : Std.ExtTreeSet String
deriving DecidableEq

namespace StageSet

def ofList (stages : List String) : StageSet := { members := Std.ExtTreeSet.ofList stages }

/-- the stages compared when none are named -/
def standard : StageSet := ofList ["IF", "WB", "RN", "EX", "PNR", "CO"]

def toList (s : StageSet) : List String := s.members.toList

def contains (s : StageSet) (stage : String) : Bool := s.members.contains stage

def size (s : StageSet) : Nat := s.members.size

def isEmpty (s : StageSet) : Bool := s.members.isEmpty

/-- the stages that one text names: its pieces between commas, trimmed, without the empty ones -/
def tokens (value : String) : List String :=
  (((value.toList.splitOn ',').map Text.trim).filter (· ≠ [])).map String.ofList

/-- the stages that all the texts name; no text at all stands for the standard set, texts that name
no stage stand for none -/
def ofArgs? (values : List String) : Option StageSet :=
  if values = [] then some standard
  else
    let stages := values.flatMap tokens
    if stages = [] then none else some (ofList stages)

def text (s : StageSet) : String := ", ".intercalate s.toList

/-! ## members -/

theorem contains_iff_mem_toList {s : StageSet} {stage : String} :
    s.contains stage = true ↔ stage ∈ s.toList := by
  simp [contains, toList]

@[simp] theorem mem_toList_ofList {stages : List String} {stage : String} :
    stage ∈ (ofList stages).toList ↔ stage ∈ stages := by
  simp [ofList, toList, Std.ExtTreeSet.mem_ofList]

theorem ext_mem {s t : StageSet} (h : ∀ stage, stage ∈ s.toList ↔ stage ∈ t.toList) : s = t := by
  obtain ⟨s⟩ := s
  obtain ⟨t⟩ := t
  have : s = t := Std.ExtTreeSet.ext_mem fun stage => by simpa [toList] using h stage
  rw [this]

theorem ordered_toList (s : StageSet) : s.toList.Pairwise fun a b => compare a b = .lt :=
  Std.ExtTreeSet.ordered_toList

@[simp] theorem ofArgs?_nil : ofArgs? [] = some standard := rfl

theorem ofArgs?_eq_none_iff {values : List String} :
    ofArgs? values = none ↔ values ≠ [] ∧ values.flatMap tokens = [] := by
  by_cases hv : values = []
  · simp [ofArgs?, hv]
  · by_cases ht : values.flatMap tokens = [] <;> simp [ofArgs?, hv, ht]

end StageSet

end PipeTrace
