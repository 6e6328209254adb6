import Mathlib.Algebra.GroupWithZero.Nat
import Mathlib.Data.List.TakeWhile
import PipeTrace.Metrics

/-!
# Counters under updates

A counter is looked at under the text of its key.  `Update.changed?` says which counter an update
changes and how: it adds a number or sets one (`Change`).  `Update.change?` is what it does to the
counter under a given text, if anything.

* `Metrics.counter?_applyAll`   after updates a counter is what the changes under its text made of it;
* `Change.foldl_add`           a counter that is only added to holds the sum;
* `Change.foldl_set`           a counter that is only set holds the last number.

So counters do not get in each other's way as long as the texts of their keys differ.  Keys with
different names have different texts if no name holds an opening brace, and so have keys with the
same name and one label of different values (`Key.name_eq_of_text_eq`, `Key.text_single_inj`).
-/

set_option autoImplicit false

namespace PipeTrace.Metrics

/-! ## the changes of one counter -/

inductive Change where
  | add (n : UInt64)
  | set (n : UInt64)
deriving DecidableEq, Repr

/-- the number after a change; what was never changed counts as 0 -/
def Change.value : Option UInt64 → Change → UInt64
  | v, .add n => v.getD 0 + n
  | _, .set n => n

def Change.apply (v : Option UInt64) (x : Change) : Option UInt64 := some (x.value v)

/-- the counter that an update changes, and how -/
def Update.changed? : Update → Option (Key × Change)
  | .increment key n => some (key, .add n)
  | .absolute key n => some (key, .set n)
  | .gaugeSet _ _ | .gaugeIncrement _ _ | .gaugeDecrement _ _ | .observe _ _ => none

/-- what an update does to the counter under a text -/
def Update.change? (k : String) (u : Update) : Option Change :=
  (u.changed?.filter (·.1.text = k)).map Prod.snd

theorem Update.change?_of_changed? {u : Update} {key : Key} {x : Change}
    (h : u.changed? = some (key, x)) (k : String) :
    u.change? k = if key.text = k then some x else none := by
  unfold change?
  rw [h, Option.filter_some]
  by_cases hkey : key.text = k
  · rw [if_pos hkey, if_pos (decide_eq_true hkey)]
    rfl
  · rw [if_neg hkey, if_neg fun hdecide => hkey (of_decide_eq_true hdecide)]
    rfl

theorem apply_of_changed? {u : Update} {key : Key} {x : Change} (h : u.changed? = some (key, x))
    (m : Metrics) : m.apply u = m.setCounter key.text (x.value (m.counter? key.text)) := by
  cases u with
  | increment | absolute =>
    cases h
    rfl
  | gaugeSet | gaugeIncrement | gaugeDecrement | observe => cases h

theorem counter?_apply_of_changed?_eq_none {u : Update} (h : u.changed? = none) (m : Metrics)
    (k : String) : (m.apply u).counter? k = m.counter? k := by
  cases u with
  | increment | absolute => cases h
  | gaugeSet | gaugeIncrement | gaugeDecrement | observe => rfl

theorem counter?_apply (m : Metrics) (u : Update) (k : String) :
    (m.apply u).counter? k = (u.change? k).elim (m.counter? k) (Change.apply (m.counter? k)) := by
  cases h : u.changed? with
  | none =>
    have hnone : u.change? k = none := by
      unfold Update.change?
      rw [h]
      rfl
    rw [hnone, counter?_apply_of_changed?_eq_none h]
    rfl
  | some p =>
    obtain ⟨key, x⟩ := p
    rw [apply_of_changed? h, counter?_setCounter, Update.change?_of_changed? h]
    by_cases hkey : key.text = k
    · rw [if_pos hkey, if_pos hkey, hkey]
      rfl
    · rw [if_neg hkey, if_neg hkey]
      rfl

/-- what updates make of a view, if each of them changes it in a known way or not at all -/
theorem view_applyAll_of_changes {α β : Type} (view : Metrics → α) (change? : Update → Option β)
    (f : α → β → α)
    (h : ∀ m u, view (apply m u) = (change? u).elim (view m) (f (view m))) (m : Metrics)
    (us : List Update) : view (m.applyAll us) = (us.filterMap change?).foldl f (view m) := by
  induction us generalizing m with
  | nil => rfl
  | cons u us ih =>
    rw [applyAll_cons, ih, h, List.filterMap_cons]
    cases change? u <;> rfl

/-- **A counter is what the changes under its own text made of it.** -/
theorem counter?_applyAll (m : Metrics) (us : List Update) (k : String) :
    (m.applyAll us).counter? k = (us.filterMap (·.change? k)).foldl Change.apply (m.counter? k) :=
  view_applyAll_of_changes (·.counter? k) (·.change? k) Change.apply
    (fun m u => counter?_apply m u k) m us

/-! ## counters that are only added to, or only set -/

theorem Change.foldl_add (ns : List Nat) (v : Option UInt64) :
    (ns.map fun n => Change.add (.ofNat n)).foldl Change.apply v =
      if ns = [] then v else some (v.getD 0 + .ofNat ns.sum) := by
  induction ns generalizing v with
  | nil => rfl
  | cons n ns ih =>
    rw [List.map_cons, List.foldl_cons, ih, if_neg (List.cons_ne_nil n ns), List.sum_cons,
      UInt64.ofNat_add]
    show (if ns = [] then some (v.getD 0 + .ofNat n)
      else some (v.getD 0 + .ofNat n + .ofNat ns.sum)) = _
    split
    · rename_i hns
      rw [hns, List.sum_nil]
      show _ = some (_ + (_ + 0))
      rw [UInt64.add_zero]
    · rw [UInt64.add_assoc]

theorem Change.foldl_set (ns : List UInt64) (v : Option UInt64) :
    (ns.map Change.set).foldl Change.apply v = ns.getLast?.or v := by
  induction ns generalizing v with
  | nil => rfl
  | cons n ns ih =>
    rw [List.map_cons, List.foldl_cons, ih, List.getLast?_cons]
    show ns.getLast?.or (some n) = some (ns.getLast?.getD n)
    cases ns.getLast? <;> rfl

/-! ## keys and their texts -/

namespace Key

/-- the name of a key is what stands before the first brace of its text -/
theorem takeWhile_text {key : Key} (h : '\x7b' ∉ key.name.toList) :
    key.text.toList.takeWhile (· ≠ '\x7b') = key.name.toList := by
  have hname : ∀ c ∈ key.name.toList, decide (c ≠ '\x7b') = true := by
    intro c hc
    exact decide_eq_true fun heq => h (heq ▸ hc)
  unfold text
  split
  · exact List.takeWhile_eq_self_iff.mpr hname
  · rw [String.append_assoc, String.append_assoc, String.toList_append,
      List.takeWhile_append_of_pos hname, String.toList_append]
    exact List.append_nil _

theorem name_eq_of_text_eq {a b : Key} (ha : '\x7b' ∉ a.name.toList) (hb : '\x7b' ∉ b.name.toList)
    (h : a.text = b.text) : a.name = b.name := by
  apply String.toList_inj.mp
  rw [← takeWhile_text ha, h, takeWhile_text hb]

theorem text_single (name label value : String) :
    text { name, labels := [(label, value)] } =
      name ++ "\x7b" ++ (label ++ "=" ++ value) ++ "\x7d" := by
  rfl

/-- keys with the same name and one label are told apart by its value -/
theorem text_single_inj {name label v w : String}
    (h : text { name, labels := [(label, v)] } = text { name, labels := [(label, w)] }) : v = w := by
  rw [text_single, text_single] at h
  have hinner : label ++ "=" ++ v = label ++ "=" ++ w :=
    (String.append_right_inj _).mp ((String.append_left_inj _).mp h)
  exact (String.append_right_inj _).mp hinner

end Key

end PipeTrace.Metrics
