import Mathlib.Data.List.DropRight
import PipeTrace.Proofs.Keys

/-!
# Metrics do not interfere

What an update leaves alone, and what is left of all of them:

* `Metrics.Family`        what an update is for: a counter, a gauge or a histogram;
* `Change.tally`          the last number that was set and what was added since, in exact integers;
* `view_applyAll`         what each update leaves as it was, all of them do; so updates of another
  family, or under another text, leave a counter and a gauge alone.

A counter is the tally of the changes under its text as far as that is a word.  The text stands for
one key only if keys can be read back (`Key.text_inj`); then nothing that is recorded through one
key shows under another.
-/

set_option autoImplicit false

namespace PipeTrace.Metrics

/-! ## the tally of a counter -/

namespace Change

def amount : Change → Nat
  | add n => n.toNat
  | set n => n.toNat

def isAdd : Change → Bool
  | add _ => true
  | set _ => false

/-- the last number that was set, 0 if none was -/
def base (xs : List Change) : Nat := ((xs.filter (! ·.isAdd)).getLast?.map amount).getD 0

/-- the numbers that were added after the last one was set -/
def added (xs : List Change) : List Nat := (xs.rtakeWhile isAdd).map amount

/-- what changes come to, in exact integers -/
def tally (xs : List Change) : Nat := base xs + (added xs).sum

theorem tally_concat_add (xs : List Change) (n : UInt64) :
    tally (xs ++ [add n]) = tally xs + n.toNat := by
  have hbase : base (xs ++ [add n]) = base xs := by
    unfold base
    rw [List.filter_append, List.filter_singleton]
    show ((xs.filter _ ++ []).getLast?.map amount).getD 0 = _
    rw [List.append_nil]
  have hadded : added (xs ++ [add n]) = added xs ++ [n.toNat] := by
    unfold added
    rw [List.rtakeWhile_concat_pos _ _ _ rfl, List.map_append]
    rfl
  unfold tally
  rw [hbase, hadded, List.sum_append, List.sum_singleton, Nat.add_assoc]

theorem tally_concat_set (xs : List Change) (n : UInt64) :
    tally (xs ++ [set n]) = n.toNat := by
  have hbase : base (xs ++ [set n]) = n.toNat := by
    unfold base
    rw [List.filter_append, List.filter_singleton]
    show ((xs.filter _ ++ [set n]).getLast?.map amount).getD 0 = _
    rw [List.getLast?_concat]
    rfl
  have hadded : added (xs ++ [set n]) = [] := by
    unfold added
    rw [List.rtakeWhile_concat_neg _ _ _ Bool.false_ne_true]
    rfl
  unfold tally
  rw [hbase, hadded, List.sum_nil, Nat.add_zero]

/-- a counter holds the tally, as far as that is a word -/
theorem foldl_eq_tally (xs : List Change) :
    xs.foldl Change.apply none = if xs = [] then none else some (.ofNat (tally xs)) := by
  induction xs using List.reverseRecOn with
  | nil => rfl
  | append_singleton xs x ih =>
    have hvalue : (xs.foldl Change.apply none).getD 0 = .ofNat (tally xs) := by
      rw [ih]
      split
      · rename_i hnil
        rw [hnil]
        rfl
      · rfl
    rw [List.foldl_append, if_neg (List.concat_ne_nil x xs)]
    cases x with
    | add n =>
      show some ((xs.foldl Change.apply none).getD 0 + n) = _
      rw [hvalue, tally_concat_add, UInt64.ofNat_add, UInt64.ofNat_toNat]
    | set n =>
      show some n = _
      rw [tally_concat_set, UInt64.ofNat_toNat]

end Change

/-! ## what an update is for -/

inductive Family where
  | counter
  | gauge
  | histogram
deriving DecidableEq, Repr

namespace Update

def family : Update → Family
  | increment _ _ => .counter
  | absolute _ _ => .counter
  | gaugeSet _ _ => .gauge
  | gaugeIncrement _ _ => .gauge
  | gaugeDecrement _ _ => .gauge
  | observe _ _ => .histogram

def key : Update → Key
  | increment key _ => key
  | absolute key _ => key
  | gaugeSet key _ => key
  | gaugeIncrement key _ => key
  | gaugeDecrement key _ => key
  | observe key _ => key

theorem change?_eq_none_iff {u : Update} {k : String} :
    u.change? k = none ↔ (u.family = .counter → u.key.text ≠ k) := by
  cases h : u.changed? with
  | none =>
    have hnone : u.change? k = none := by
      unfold change?
      rw [h]
      rfl
    refine iff_of_true hnone fun hfamily => ?_
    cases u with
    | increment | absolute => cases h
    | gaugeSet | gaugeIncrement | gaugeDecrement | observe => cases hfamily
  | some p =>
    obtain ⟨key, x⟩ := p
    have hcounter : u.family = .counter ∧ u.key = key := by
      cases u <;> cases h <;> exact ⟨rfl, rfl⟩
    rw [change?_of_changed? h, hcounter.2, forall_prop_of_true hcounter.1]
    split
    · rename_i htext
      exact iff_of_false nofun (not_not.mpr htext)
    · rename_i htext
      exact iff_of_true rfl htext

end Update

/-! ## what is left alone -/

section
variable {u : Update} {us : List Update} {k : String}

theorem counter?_apply_of_other (m : Metrics) (h : u.family = .counter → u.key.text ≠ k) :
    (m.apply u).counter? k = m.counter? k := by
  rw [counter?_apply, Update.change?_eq_none_iff.mpr h]
  rfl

theorem gauge?_apply_of_other (m : Metrics) (h : u.family = .gauge → u.key.text ≠ k) :
    (m.apply u).gauge? k = m.gauge? k := by
  cases u with
  | increment | absolute | observe => rfl
  | gaugeSet key x | gaugeIncrement key x | gaugeDecrement key x =>
    exact (gauge?_setGauge m key.text k _).trans (if_neg (h rfl))

/-- what each of the updates leaves as it was, all of them do -/
theorem view_applyAll {α : Type} (view : Metrics → α)
    (h : ∀ u ∈ us, ∀ m : Metrics, view (m.apply u) = view m) (m : Metrics) :
    view (m.applyAll us) = view m := by
  induction us generalizing m with
  | nil => rfl
  | cons u us ih =>
    obtain ⟨hu, hus⟩ := List.forall_mem_cons.mp h
    rw [applyAll_cons, ih hus, hu]

theorem counter?_applyAll_of_others (m : Metrics)
    (h : ∀ u ∈ us, u.family = .counter → u.key.text ≠ k) :
    (m.applyAll us).counter? k = m.counter? k :=
  view_applyAll (·.counter? k) (fun u hu m => counter?_apply_of_other m (h u hu)) m

theorem gauge?_applyAll_of_others (m : Metrics)
    (h : ∀ u ∈ us, u.family = .gauge → u.key.text ≠ k) :
    (m.applyAll us).gauge? k = m.gauge? k :=
  view_applyAll (·.gauge? k) (fun u hu m => gauge?_apply_of_other m (h u hu)) m

theorem applyAll_of_histograms (m : Metrics) (h : ∀ u ∈ us, u.family = .histogram) :
    m.applyAll us = m := by
  refine view_applyAll id (fun u hu m => ?_) m
  have hfamily := h u hu
  cases u with
  | observe => rfl
  | increment | absolute | gaugeSet | gaugeIncrement | gaugeDecrement => cases hfamily

theorem counter?_recorded (us : List Update) (k : String) :
    (applyAll {} us).counter? k =
      if us.filterMap (·.change? k) = [] then none
      else some (.ofNat (Change.tally (us.filterMap (·.change? k)))) := by
  rw [counter?_applyAll, counter?_new, Change.foldl_eq_tally]

theorem changes_eq_nil_iff : us.filterMap (·.change? k) = [] ↔
    ∀ u ∈ us, u.family = .counter → u.key.text ≠ k := by
  rw [List.filterMap_eq_nil_iff]
  exact forall₂_congr fun u _ => Update.change?_eq_none_iff

theorem counter?_recorded_eq_none_iff : (applyAll {} us).counter? k = none ↔
    ∀ u ∈ us, u.family = .counter → u.key.text ≠ k := by
  rw [counter?_recorded, ← changes_eq_nil_iff]
  split
  · rename_i hnil
    exact iff_of_true rfl hnil
  · rename_i hne
    exact iff_of_false nofun hne

end

/-- **Metrics do not interfere.**  A counter is absent if and only if it was never updated, and else
the last number that was set under its text and all that was added since, as long as that is a word.
Only counter updates change counters, only gauge updates change gauges, and observations change
nothing.  Keys that can be read back have different texts, so updates through other such keys leave
what is recorded under a key as it was. -/
theorem recorded_apart :
    (∀ (us : List Update) (k : String),
      ((applyAll {} us).counter? k = none ↔
        ∀ u ∈ us, u.family = .counter → u.key.text ≠ k) ∧
      let own := us.filterMap (·.change? k)
      (Change.base own + (Change.added own).sum < UInt64.size →
        ∀ n, (applyAll {} us).counter? k = some n →
          n.toNat = Change.base own + (Change.added own).sum)) ∧
    (∀ (m : Metrics) (us : List Update),
      ((∀ u ∈ us, u.family ≠ .gauge) → ∀ k, (m.applyAll us).gauge? k = m.gauge? k) ∧
      ((∀ u ∈ us, u.family ≠ .counter) → ∀ k, (m.applyAll us).counter? k = m.counter? k) ∧
      ((∀ u ∈ us, u.family = .histogram) → m.applyAll us = m)) ∧
    (∀ a b : Key, a.Separable → b.Separable → a.text = b.text → a = b) ∧
    ∀ (m : Metrics) (us : List Update) (key : Key), key.Separable →
      (∀ u ∈ us, u.key.Separable ∧ u.key ≠ key) →
      (m.applyAll us).counter? key.text = m.counter? key.text ∧
      (m.applyAll us).gauge? key.text = m.gauge? key.text := by
  refine ⟨fun us k => ⟨counter?_recorded_eq_none_iff, ?_⟩, fun m us => ⟨?_, ?_, ?_⟩,
    fun a b => Key.text_inj, fun m us key hkey hus => ?_⟩
  · intro own hlt n hn
    rw [counter?_recorded] at hn
    split at hn
    · cases hn
    · cases hn
      exact UInt64.toNat_ofNat_of_lt' hlt
  · exact fun h k => gauge?_applyAll_of_others m fun u hu hgauge => absurd hgauge (h u hu)
  · exact fun h k => counter?_applyAll_of_others m fun u hu hcounter => absurd hcounter (h u hu)
  · exact applyAll_of_histograms m
  · have htext : ∀ u ∈ us, u.key.text ≠ key.text := by
      intro u hu heq
      exact (hus u hu).2 (Key.text_inj (hus u hu).1 hkey heq)
    exact ⟨counter?_applyAll_of_others m fun u hu _ => htext u hu,
      gauge?_applyAll_of_others m fun u hu _ => htext u hu⟩

/-- a counter and a gauge under one key, with updates through a labelled key between them -/
theorem recorded_apart_of_two_keys :
    let plain : Key := { name := "c" }
    let labelled : Key := { name := "c", labels := [("a", "=\x7d"), ("", "")] }
    let us : List Update := [.increment plain 3, .gaugeSet plain 2.0, .absolute plain 10,
      .observe plain 1.0, .increment labelled 5, .increment plain 1, .gaugeDecrement labelled 0.5]
    ((applyAll {} us).counter? "c").map UInt64.toNat = some 11 ∧
    labelled.text = "c\x7ba==\x7d,=\x7d" ∧
    ((applyAll {} us).applyAll [.absolute labelled 7, .gaugeSet labelled 0.0]).counter? plain.text =
      (applyAll {} us).counter? plain.text := by
  intro plain labelled us
  have hplain : plain.Separable := ⟨by decide, nofun, nofun⟩
  have hlabelled : labelled.Separable := ⟨by decide, by decide, by decide⟩
  have hne : labelled ≠ plain := fun h => List.cons_ne_nil _ _ (congrArg Key.labels h)
  refine ⟨?_, by decide +kernel, ?_⟩
  · cases h : (applyAll {} us).counter? "c" with
    | none =>
      have hunused := ((recorded_apart.1 us "c").1.mp h) (.increment plain 3) (by simp [us]) rfl
      exact absurd rfl hunused
    | some n =>
      have hvalue := (recorded_apart.1 us "c").2 (by decide +kernel) n h
      rw [Option.map_some, hvalue]
      decide +kernel
  · refine (recorded_apart.2.2.2 _ _ plain hplain ?_).1
    intro u hu
    have hkey : u.key = labelled := by
      simp only [List.mem_cons, List.not_mem_nil, or_false] at hu
      rcases hu with rfl | rfl <;> rfl
    rw [hkey]
    exact ⟨hlabelled, hne⟩

end PipeTrace.Metrics
