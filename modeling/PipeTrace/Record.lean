import Std.Data.ExtTreeMap
import PipeTrace.Event

/-!
# The timing of one instruction

A `Record` holds what a log says of one instruction: its label, empty if it was never labelled,
and for each stage the cycle at which the instruction entered it first.

* `Record.stage?`   the cycle of a stage;
* `Record.enter?`   the record with one more stage, or `none` if the stage was entered before.

Records are equal exactly if ids, labels and the cycles of all stages are (`Record.ext_stage?`).
-/

set_option autoImplicit false

namespace PipeTrace

/-- what a log says of one instruction -/
structure Record where
  id : InstrId
  label : String := ""
  stages : Std.ExtTreeMap String Cycle := ∅
deriving DecidableEq

namespace Record

/-- the cycle at which the instruction first entered the stage -/
def stage? (r : Record) (stage : String) : Option Cycle := r.stages[stage]?

def stageCount (r : Record) : Nat := r.stages.size

def enter? (r : Record) (stage : String) (cycle : Cycle) : Option Record :=
  match r.stage? stage with
  | some _ => none
  | none => some { r with stages := r.stages.insert stage cycle }

/-- enters a stage; the record stays as it is if the stage was entered before -/
def enter (r : Record) (stage : String) (cycle : Cycle) : Record :=
  (r.enter? stage cycle).getD r

def relabel (r : Record) (text : String) : Record := { r with label := text }

/-! ## reading a record back -/

theorem ext_stage? {r s : Record} (hid : r.id = s.id) (hlabel : r.label = s.label)
    (hstage : ∀ stage, r.stage? stage = s.stage? stage) : r = s := by
  obtain ⟨id, label, stages⟩ := r
  obtain ⟨id', label', stages'⟩ := s
  cases hid
  cases hlabel
  have : stages = stages' := Std.ExtTreeMap.ext_getElem? hstage
  rw [this]

@[simp] theorem stage?_new (id : InstrId) (label stage : String) :
    stage? { id, label } stage = none := by
  simp [stage?]

theorem enter?_eq_none_iff {r : Record} {stage : String} {cycle : Cycle} :
    r.enter? stage cycle = none ↔ (r.stage? stage).isSome := by
  unfold enter?
  split <;> simp_all

theorem enter_of_stage?_eq_some {r : Record} {stage : String} {c cycle : Cycle}
    (h : r.stage? stage = some c) : r.enter stage cycle = r := by
  simp [enter, enter?, h]

theorem enter_of_stage?_eq_none {r : Record} {stage : String} {cycle : Cycle}
    (h : r.stage? stage = none) :
    r.enter stage cycle = { r with stages := r.stages.insert stage cycle } := by
  simp [enter, enter?, h]

@[simp] theorem id_enter (r : Record) (stage : String) (cycle : Cycle) :
    (r.enter stage cycle).id = r.id := by
  cases h : r.stage? stage with
  | none => rw [enter_of_stage?_eq_none h]
  | some c => rw [enter_of_stage?_eq_some h]

@[simp] theorem label_enter (r : Record) (stage : String) (cycle : Cycle) :
    (r.enter stage cycle).label = r.label := by
  cases h : r.stage? stage with
  | none => rw [enter_of_stage?_eq_none h]
  | some c => rw [enter_of_stage?_eq_some h]

/-- entering a stage sets its cycle if it had none, and touches no other stage -/
theorem stage?_enter (r : Record) (stage stage' : String) (cycle : Cycle) :
    (r.enter stage cycle).stage? stage' =
      if stage = stage' then some ((r.stage? stage).getD cycle) else r.stage? stage' := by
  cases h : r.stage? stage with
  | none =>
    rw [enter_of_stage?_eq_none h]
    simp [stage?, Std.ExtTreeMap.getElem?_insert]
  | some c =>
    rw [enter_of_stage?_eq_some h]
    split
    · rename_i heq
      rw [← heq, h, Option.getD_some]
    · rfl

@[simp] theorem id_relabel (r : Record) (text : String) : (r.relabel text).id = r.id := rfl
@[simp] theorem label_relabel (r : Record) (text : String) : (r.relabel text).label = text := rfl
@[simp] theorem stage?_relabel (r : Record) (text stage : String) :
    (r.relabel text).stage? stage = r.stage? stage := rfl

end Record

end PipeTrace
