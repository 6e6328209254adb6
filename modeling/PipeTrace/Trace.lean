import PipeTrace.Record

/-!
# Traces

A `Trace` holds all records of one log, in the order of their ids, together with the lines that
were skipped and the number of lines read.  The record kept under an id bears that id, which the
type says.

* `Trace.find?`     the record of an id;
* `Trace.modify`    changes the record of an id, which is made if there is none;
* `Trace.touch`, `Trace.relabel`, `Trace.enter`   the three changes an event can make;
* `Trace.warn`      notes a skipped line.
-/

set_option autoImplicit false

namespace PipeTrace

/-- a line that was skipped: its number, counted from 1, its text as read, and the reason -/
structure Warning where
  line : Nat
  text : String
  error : LineError
deriving DecidableEq, Repr

structure Trace where
  /-- the name of the log in reports and messages -/
  source : String
  records : Std.ExtTreeMap InstrId Record := ∅
  warnings : Array Warning := #[]
  /-- how many lines were read, skipped ones and those without an event included -/
  lines : Nat := 0
  id_of_getElem? : ∀ {id : InstrId} {r : Record}, records[id]? = some r → r.id = id := by
    intro id r h
    rw [Std.ExtTreeMap.getElem?_empty] at h
    cases h

namespace Trace

def find? (t : Trace) (id : InstrId) : Option Record := t.records[id]?

def contains (t : Trace) (id : InstrId) : Bool := (t.find? id).isSome

def size (t : Trace) : Nat := t.records.size

def isEmpty (t : Trace) : Bool := t.records.isEmpty

def ids (t : Trace) : List InstrId := t.records.keys

theorem length_ids (t : Trace) : t.ids.length = t.size := Std.ExtTreeMap.length_keys

/-- the record of an instruction, an empty one if there is none yet -/
def recordOf (t : Trace) (id : InstrId) : Record := (t.find? id).getD { id }

theorem id_recordOf (t : Trace) (id : InstrId) : (t.recordOf id).id = id := by
  unfold recordOf
  cases h : t.find? id with
  | none => rfl
  | some r => exact t.id_of_getElem? h

/-- changes the record of an instruction by a function that keeps its id -/
def modify (t : Trace) (id : InstrId) (f : Record → Record) (hf : ∀ r, (f r).id = r.id) :
    Trace where
  source := t.source
  records := t.records.insert id (f (t.recordOf id))
  warnings := t.warnings
  lines := t.lines
  id_of_getElem? := by
    intro id' r h
    rw [Std.ExtTreeMap.getElem?_insert] at h
    split at h
    · rename_i heq
      cases h
      rw [hf, id_recordOf]
      exact Std.LawfulEqOrd.eq_of_compare heq
    · exact t.id_of_getElem? h

def touch (t : Trace) (id : InstrId) : Trace := t.modify id (fun r => r) fun _ => rfl

def relabel (t : Trace) (id : InstrId) (text : String) : Trace :=
  t.modify id (·.relabel text) fun _ => rfl

def enter (t : Trace) (id : InstrId) (stage : String) (cycle : Cycle) : Trace :=
  t.modify id (·.enter stage cycle) fun r => r.id_enter stage cycle

def countLine (t : Trace) : Trace := { t with lines := t.lines + 1 }

def warn (t : Trace) (text : String) (error : LineError) : Trace :=
  { t with warnings := t.warnings.push { line := t.lines, text, error } }

/-! ## reading a trace back -/

@[simp] theorem find?_new (source : String) (id : InstrId) : find? { source } id = none := by
  simp [find?]

theorem find?_modify (t : Trace) (id id' : InstrId) (f : Record → Record)
    (hf : ∀ r, (f r).id = r.id) :
    (t.modify id f hf).find? id' = if id = id' then some (f (t.recordOf id)) else t.find? id' := by
  simp [find?, modify, Std.ExtTreeMap.getElem?_insert]

@[simp] theorem find?_countLine (t : Trace) (id : InstrId) :
    t.countLine.find? id = t.find? id := rfl

@[simp] theorem find?_warn (t : Trace) (text : String) (error : LineError) (id : InstrId) :
    (t.warn text error).find? id = t.find? id := rfl

theorem mem_ids {t : Trace} {id : InstrId} : id ∈ t.ids ↔ (t.find? id).isSome := by
  simp [ids, find?, Std.ExtTreeMap.mem_keys]

end Trace

end PipeTrace
