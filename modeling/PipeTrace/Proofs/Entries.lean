import Mathlib.Logic.Basic
import PipeTrace.Record

/-!
# A record is the map of its first entries

Stages are entered one after the other, each at a cycle, and a stage may be tried more than once.

* `Record.enterAll`   the record after all entries;
* `Record.answers`    what each entry answers, that its stage was new or that it was not;
* `stage?_enterAll`   the cycle of a stage is that of its first entry.

So a record is known from its id, its label and the first entry of each stage
(`Record.eq_enterAll_iff`), whatever was tried after that and in whatever order.
-/

set_option autoImplicit false

namespace PipeTrace.Record

def enterAll (r : Record) (entries : List (String × Cycle)) : Record :=
  entries.foldl (fun r e => r.enter e.1 e.2) r

/-- what the entries answer one after the other: that the stage was new -/
def answers (r : Record) : List (String × Cycle) → List Bool
  | [] => []
  | e :: es => (r.enter? e.1 e.2).isSome :: (r.enter e.1 e.2).answers es

theorem enterAll_cons (r : Record) (e : String × Cycle) (es : List (String × Cycle)) :
    r.enterAll (e :: es) = (r.enter e.1 e.2).enterAll es := rfl

/-! ## one entry -/

section
variable {r : Record} {stage : String} {cycle : Cycle}

theorem isSome_enter?_iff : (r.enter? stage cycle).isSome = true ↔ r.stage? stage = none := by
  rw [Option.isSome_iff_ne_none, ne_eq, enter?_eq_none_iff, Option.not_isSome_iff_eq_none]

/-- an entry changes the record if and only if the stage was new -/
theorem enter_eq_self_iff : r.enter stage cycle = r ↔ r.enter? stage cycle = none := by
  constructor
  · intro h
    rw [enter?_eq_none_iff]
    have hstage := r.stage?_enter stage stage cycle
    rw [h, if_pos rfl] at hstage
    rw [hstage]
    rfl
  · intro h
    unfold enter
    rw [h, Option.getD_none]

theorem stageCount_enter (r : Record) (stage : String) (cycle : Cycle) :
    (r.enter stage cycle).stageCount =
      r.stageCount + (r.enter? stage cycle).isSome.toNat := by
  cases h : r.stage? stage with
  | none =>
    have hnew : ¬ r.stages.contains stage = true := by
      rw [Std.ExtTreeMap.contains_eq_isSome_getElem?]
      exact fun hsome => Option.isSome_iff_ne_none.mp hsome h
    rw [enter_of_stage?_eq_none h, isSome_enter?_iff.mpr h]
    exact Std.ExtTreeMap.size_insert.trans (if_neg hnew)
  | some c =>
    have hnone : r.enter? stage cycle = none := by
      rw [enter?_eq_none_iff, h]
      rfl
    rw [enter_of_stage?_eq_some h, hnone]
    rfl

theorem relabel_enter (r : Record) (stage : String) (cycle : Cycle) (text : String) :
    (r.enter stage cycle).relabel text = (r.relabel text).enter stage cycle := by
  refine ext_stage? ?_ ?_ fun stage' => ?_
  · rw [id_relabel, id_enter, id_enter, id_relabel]
  · rw [label_relabel, label_enter, label_relabel]
  · rw [stage?_relabel, stage?_enter, stage?_enter, stage?_relabel, stage?_relabel]

end

/-! ## all entries -/

theorem id_enterAll (r : Record) (es : List (String × Cycle)) : (r.enterAll es).id = r.id := by
  induction es generalizing r with
  | nil => rfl
  | cons e es ih => rw [enterAll_cons, ih, id_enter]

theorem label_enterAll (r : Record) (es : List (String × Cycle)) :
    (r.enterAll es).label = r.label := by
  induction es generalizing r with
  | nil => rfl
  | cons e es ih => rw [enterAll_cons, ih, label_enter]

/-- the first entry of a stage stays -/
theorem stage?_enterAll (r : Record) (es : List (String × Cycle)) (stage : String) :
    (r.enterAll es).stage? stage = (r.stage? stage).or (es.lookup stage) := by
  induction es generalizing r with
  | nil => exact Option.or_none.symm
  | cons e es ih =>
    rw [enterAll_cons, ih, stage?_enter, List.lookup_cons]
    by_cases h : e.1 = stage
    · rw [if_pos h, h, beq_self_eq_true]
      cases r.stage? stage <;> rfl
    · rw [if_neg h, beq_eq_false_iff_ne.mpr (Ne.symm h)]

theorem stageCount_enterAll (r : Record) (es : List (String × Cycle)) :
    (r.enterAll es).stageCount = r.stageCount + (r.answers es).count true := by
  induction es generalizing r with
  | nil => rfl
  | cons e es ih =>
    rw [enterAll_cons, ih, stageCount_enter, answers, List.count_cons]
    cases (r.enter? e.1 e.2).isSome
    · rfl
    · exact Nat.add_right_comm _ _ _

theorem relabel_enterAll (r : Record) (es : List (String × Cycle)) (text : String) :
    (r.enterAll es).relabel text = (r.relabel text).enterAll es := by
  induction es generalizing r with
  | nil => rfl
  | cons e es ih => rw [enterAll_cons, ih, relabel_enter, enterAll_cons]

/-! ## records that were built up -/

theorem stage?_enterAll_new (id : InstrId) (label : String) (es : List (String × Cycle))
    (stage : String) : (enterAll { id, label } es).stage? stage = es.lookup stage := by
  rw [stage?_enterAll, stage?_new, Option.none_or]

theorem enterAll_eq_iff {a b : InstrId} {x y : String} {us vs : List (String × Cycle)} :
    enterAll { id := a, label := x } us = enterAll { id := b, label := y } vs ↔
      a = b ∧ x = y ∧ ∀ stage, us.lookup stage = vs.lookup stage := by
  constructor
  · intro h
    have hid := congrArg Record.id h
    have hlabel := congrArg Record.label h
    rw [id_enterAll, id_enterAll] at hid
    rw [label_enterAll, label_enterAll] at hlabel
    refine ⟨hid, hlabel, fun stage => ?_⟩
    rw [← stage?_enterAll_new a x us, h, stage?_enterAll_new]
  · rintro ⟨rfl, rfl, hlookup⟩
    refine ext_stage? ?_ ?_ fun stage => ?_
    · rw [id_enterAll, id_enterAll]
    · rw [label_enterAll, label_enterAll]
    · rw [stage?_enterAll_new, stage?_enterAll_new, hlookup]

/-- **A record is the map of its first entries.**  After any entries, one more answers that its
stage is new if and only if no entry named that stage before, and leaves the record as it was if and
only if it does not.  Each stage has the cycle of its first entry, and there are as many stages as
entries that were new.  A label may be given at any time.  Records that were built up from nothing
are equal if and only if their ids, their labels and the first entries of all stages are. -/
theorem enterAll_first_entries (id : InstrId) (label : String) (es : List (String × Cycle)) :
    let r := enterAll { id, label } es
    (∀ stage cycle,
      ((r.enter? stage cycle).isSome = true ↔ ∀ e ∈ es, e.1 ≠ stage) ∧
      (r.enter stage cycle = r ↔ (r.enter? stage cycle).isSome = false)) ∧
    (∀ stage, r.stage? stage = es.lookup stage) ∧
    r.stageCount = (answers { id, label } es).count true ∧
    (∀ text, r.relabel text = enterAll { id, label := text } es) ∧
    ∀ id' label' es', r = enterAll { id := id', label := label' } es' ↔
      id = id' ∧ label = label' ∧ ∀ stage, es.lookup stage = es'.lookup stage := by
  intro r
  refine ⟨fun stage cycle => ⟨?_, ?_⟩, stage?_enterAll_new id label es, ?_,
    relabel_enterAll { id, label } es, fun id' label' es' => enterAll_eq_iff⟩
  · rw [isSome_enter?_iff, stage?_enterAll_new, List.lookup_eq_none_iff]
    exact forall₂_congr fun e _ => by rw [bne_iff_ne, ne_comm]
  · rw [enter_eq_self_iff, Option.isSome_eq_false_iff, Option.isNone_iff_eq_none]
  · rw [stageCount_enterAll]
    exact Nat.zero_add _

/-- the second try of a stage is not counted -/
example : answers { id := 1 } [("IF", 5), ("EX", 7), ("IF", 9)] = [true, true, false] := by
  decide +kernel

end PipeTrace.Record
