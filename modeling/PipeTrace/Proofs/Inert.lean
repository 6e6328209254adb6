import Mathlib.Algebra.Order.Interval.Finset.SuccPred
import Mathlib.Data.Finset.Card
import Mathlib.Data.Nat.SuccPred
import Mathlib.Order.Interval.Finset.Nat
import PipeTrace.Proofs.Reference

/-!
# Lines without effect

A line that is skipped, or that carries no event, may as well not be in the log.  `without D`
takes the lines with the numbers in `D` out of a log, and `keptUpTo D k` says how many of the first
`k` lines stay.  If only lines without effect are taken out (`Loader.Inert`), the records and the
counter stay as they are, and so do the warnings about the other lines, but for the line numbers
(`Loader.replay_without`).

Lines are counted from 1, as in a `Warning`.
-/

set_option autoImplicit false

namespace PipeTrace

/-- of lines that have `k` lines before them, those with a number outside `D` -/
def withoutFrom (D : Finset Nat) (k : Nat) (lines : List String) : List String :=
  ((lines.zipIdx (k + 1)).filter fun entry => entry.2 ∉ D).map Prod.fst

def without (D : Finset Nat) (lines : List String) : List String := withoutFrom D 0 lines

/-- how many of the first `k` lines have a number outside `D` -/
def keptUpTo (D : Finset Nat) (k : Nat) : Nat := (Finset.Icc 1 k \ D).card

/-- a warning with the number that its line gets when the lines in `D` are taken out -/
def Warning.renumber (D : Finset Nat) (w : Warning) : Warning :=
  { w with line := keptUpTo D w.line }

section
variable {D : Finset Nat} {k : Nat}

theorem withoutFrom_cons_of_mem (h : k + 1 ∈ D) (line : String) (rest : List String) :
    withoutFrom D k (line :: rest) = withoutFrom D (k + 1) rest := by
  unfold withoutFrom
  rw [List.zipIdx_cons, List.filter_cons_of_neg]
  exact fun hd => of_decide_eq_true hd h

theorem withoutFrom_cons_of_notMem (h : k + 1 ∉ D) (line : String) (rest : List String) :
    withoutFrom D k (line :: rest) = line :: withoutFrom D (k + 1) rest := by
  unfold withoutFrom
  rw [List.zipIdx_cons, List.filter_cons_of_pos, List.map_cons]
  exact decide_eq_true h

theorem keptUpTo_succ_of_mem (h : k + 1 ∈ D) : keptUpTo D (k + 1) = keptUpTo D k := by
  unfold keptUpTo
  rw [← Finset.insert_Icc_right_eq_Icc_add_one (Nat.le_add_left 1 k),
    Finset.insert_sdiff_of_mem _ h]

theorem keptUpTo_succ_of_notMem (h : k + 1 ∉ D) : keptUpTo D (k + 1) = keptUpTo D k + 1 := by
  unfold keptUpTo
  rw [← Finset.insert_Icc_right_eq_Icc_add_one (Nat.le_add_left 1 k),
    Finset.insert_sdiff_of_notMem _ h, Finset.card_insert_of_notMem]
  intro hk
  have := (Finset.mem_Icc.mp (Finset.mem_sdiff.mp hk).1).2
  omega

end

theorem keptUpTo_zero (D : Finset Nat) : keptUpTo D 0 = 0 := by
  unfold keptUpTo
  rw [Finset.Icc_eq_empty (by omega), Finset.empty_sdiff, Finset.card_empty]

theorem length_withoutFrom (D : Finset Nat) (k : Nat) (lines : List String) :
    keptUpTo D k + (withoutFrom D k lines).length = keptUpTo D (k + lines.length) := by
  induction lines generalizing k with
  | nil => rfl
  | cons line rest ih =>
    have hk : k + (rest.length + 1) = k + 1 + rest.length := by omega
    rw [List.length_cons, hk, ← ih]
    by_cases h : k + 1 ∈ D
    · rw [withoutFrom_cons_of_mem h, keptUpTo_succ_of_mem h]
    · rw [withoutFrom_cons_of_notMem h, keptUpTo_succ_of_notMem h, List.length_cons]
      omega

theorem length_without {D : Finset Nat} {lines : List String}
    (h : D ⊆ Finset.Icc 1 lines.length) : (without D lines).length + D.card = lines.length := by
  have hlen : (without D lines).length = keptUpTo D lines.length := by
    have h0 := length_withoutFrom D 0 lines
    rwa [keptUpTo_zero, Nat.zero_add, Nat.zero_add] at h0
  calc (without D lines).length + D.card
      = (Finset.Icc 1 lines.length \ D).card + D.card := by rw [hlen]; rfl
    _ = (Finset.Icc 1 lines.length).card := Finset.card_sdiff_add_card_eq_card h
    _ = lines.length := by rw [Nat.card_Icc, Nat.add_sub_cancel]

namespace Chronicle

/-- a line that neither moves the counter nor says anything of an instruction -/
def Idle (n : Int) (line : String) : Prop := next n line = n ∧ mark? n line = none

theorem idle_of_parse {line : String} (h : Event.parse line = .ok none) (n : Int) :
    Idle n line := by
  unfold Idle next mark?
  rw [h]
  exact ⟨rfl, rfl⟩

/-- of lines that have `k` lines before them, those with a number in `D` are idle -/
def IdleAt (D : Finset Nat) (n : Int) (k : Nat) (lines : List String) : Prop :=
  ∀ i line, lines[i]? = some line → k + i + 1 ∈ D → Idle (counterFrom n (lines.take i)) line

section
variable {D : Finset Nat} {n : Int} {k : Nat}

theorem IdleAt.head {line : String} {rest : List String} (h : IdleAt D n k (line :: rest))
    (hk : k + 1 ∈ D) : Idle n line := h 0 line rfl hk

theorem IdleAt.tail {line : String} {rest : List String} (h : IdleAt D n k (line :: rest)) :
    IdleAt D (next n line) (k + 1) rest := by
  intro i line' hline' hi
  have hi' : k + (i + 1) + 1 ∈ D := by
    rwa [show k + (i + 1) + 1 = k + 1 + i + 1 by omega]
  exact h (i + 1) line' hline' hi'

/-! ## a log without its idle lines -/

theorem counterFrom_withoutFrom {lines : List String} (h : IdleAt D n k lines) :
    counterFrom n (withoutFrom D k lines) = counterFrom n lines := by
  -- whether a line is idle depends on the counter at it, so the induction is for every counter
  induction lines generalizing n k with
  | nil => rfl
  | cons line rest ih =>
    have hrest := ih h.tail
    by_cases hk : k + 1 ∈ D
    · rw [(h.head hk).1] at hrest
      rw [withoutFrom_cons_of_mem hk, counterFrom_cons, (h.head hk).1, hrest]
    · rw [withoutFrom_cons_of_notMem hk, counterFrom_cons, hrest, counterFrom_cons]

theorem marksFrom_withoutFrom {lines : List String} (h : IdleAt D n k lines) :
    marksFrom n (withoutFrom D k lines) = marksFrom n lines := by
  induction lines generalizing n k with
  | nil => rfl
  | cons line rest ih =>
    have hrest := ih h.tail
    by_cases hk : k + 1 ∈ D
    · obtain ⟨hnext, hmark⟩ := h.head hk
      rw [hnext] at hrest
      rw [withoutFrom_cons_of_mem hk, hrest, marksFrom, hnext, hmark, Option.toList_none,
        List.nil_append]
    · rw [withoutFrom_cons_of_notMem hk, marksFrom, hrest, marksFrom]

/-- the refusals of the kept lines, which have `keptUpTo D k` lines before them now -/
theorem refusalsFrom_withoutFrom {lines : List String} (h : IdleAt D n k lines) :
    refusalsFrom n (keptUpTo D k) (withoutFrom D k lines) =
      ((refusalsFrom n k lines).filter (·.line ∉ D)).map (Warning.renumber D) := by
  induction lines generalizing n k with
  | nil => rfl
  | cons line rest ih =>
    have hrest := ih h.tail
    rw [refusalsFrom, List.filter_append, List.map_append, ← hrest]
    by_cases hk : k + 1 ∈ D
    · rw [withoutFrom_cons_of_mem hk, keptUpTo_succ_of_mem hk, (h.head hk).1]
      cases refusal? n line with
      | none => rfl
      | some error =>
        rw [Option.toList_some, List.map_singleton, List.filter_cons_of_neg]
        · rfl
        · exact fun hd => of_decide_eq_true hd hk
    · rw [withoutFrom_cons_of_notMem hk, keptUpTo_succ_of_notMem hk, refusalsFrom]
      congr 1
      cases refusal? n line with
      | none => rfl
      | some error =>
        have hline : keptUpTo D (k + 1) = keptUpTo D k + 1 := keptUpTo_succ_of_notMem hk
        rw [Option.toList_some, List.map_singleton, List.map_singleton, List.filter_cons_of_pos,
          List.filter_nil, List.map_singleton]
        · unfold Warning.renumber
          rw [hline]
        · exact decide_eq_true hk

end

end Chronicle

open Chronicle

namespace Loader

/-- line `i` has no effect: there is a warning about it, or it carries no event -/
def Inert (source : String) (lines : List String) (i : Nat) : Prop :=
  (∃ w ∈ (replay source lines).trace.warnings.toList, w.line = i) ∨
    ∃ line, (line, i) ∈ lines.zipIdx 1 ∧ Event.parse line = .ok none

theorem Inert.idle {source : String} {lines : List String} {i : Nat}
    (h : Inert source lines i) :
    ∃ j line, i = j + 1 ∧ lines[j]? = some line ∧ Idle (counter (lines.take j)) line := by
  rcases h with ⟨w, hw, rfl⟩ | ⟨line, hline, hparse⟩
  · rw [warnings_replay] at hw
    obtain ⟨j, hj, htext, hrefusal⟩ := mem_refusalsFrom_iff.mp hw
    exact ⟨j, w.text, by omega, htext, next_and_mark?_of_refusal? hrefusal⟩
  · obtain ⟨hi, hget⟩ := List.mk_mem_zipIdx_iff_le_and_getElem?_sub.mp hline
    exact ⟨i - 1, line, by omega, hget, idle_of_parse hparse _⟩

/-- **Lines without effect can be taken out of a log.** -/
theorem replay_without (source : String) (lines : List String) (D : Finset Nat)
    (h : ∀ i ∈ D, Inert source lines i) :
    let l := replay source lines
    let l' := replay source (without D lines)
    l'.trace.records = l.trace.records ∧ l'.cycle = l.cycle ∧
    l'.trace.warnings.toList =
      (l.trace.warnings.toList.filter (·.line ∉ D)).map (Warning.renumber D) ∧
    l'.trace.lines + D.card = l.trace.lines := by
  intro l l'
  have hidle : IdleAt D 0 0 lines := by
    intro j line hline hj
    obtain ⟨j', line', hj', hline', hidle⟩ := (h _ hj).idle
    obtain rfl : j' = j := by omega
    obtain rfl : line' = line := Option.some_inj.mp (hline'.symm.trans hline)
    exact hidle
  have hsub : D ⊆ Finset.Icc 1 lines.length := by
    intro i hi
    obtain ⟨j, line, rfl, hline, -⟩ := (h i hi).idle
    obtain ⟨hj, -⟩ := List.getElem?_eq_some_iff.mp hline
    exact Finset.mem_Icc.mpr ⟨Nat.le_add_left 1 j, hj⟩
  have hmarks : marks (without D lines) = marks lines := marksFrom_withoutFrom hidle
  refine ⟨?_, ?_, ?_, ?_⟩
  · apply Std.ExtTreeMap.ext_getElem?
    intro id
    show l'.trace.find? id = l.trace.find? id
    apply find?_replay_congr
    · unfold named
      rw [hmarks]
    · unfold labels marksOf
      rw [hmarks]
    · intro stage
      unfold entries marksOf
      rw [hmarks]
  · apply Int64.toInt.inj
    show (replay source _).cycle.toInt = (replay source _).cycle.toInt
    unfold replay
    rw [toInt_cycle_feedAll, toInt_cycle_feedAll]
    exact counterFrom_withoutFrom hidle
  · have hrefusals := refusalsFrom_withoutFrom hidle
    rw [keptUpTo_zero] at hrefusals
    rw [warnings_replay, warnings_replay]
    exact hrefusals
  · rw [lines_replay, lines_replay]
    exact length_without hsub

/-- an unknown code and an advance out of range are taken out; the warning about the short line
between them moves from line 3 to line 2 -/
theorem replay_without_overflow :
    let lines := ["C=\t9223372036854775807", "Q\tx", "S\t1\tEX", "C\t1", "I\t1\t0\t0"]
    (∀ i ∈ ({2, 4} : Finset Nat), Inert "a" lines i) ∧
    (replay "a" ["C=\t9223372036854775807", "S\t1\tEX", "I\t1\t0\t0"]).trace.warnings.toList =
      [{ line := 2, text := "S\t1\tEX", error := .missingField .enter 3 2 }] := by
  intro lines
  have hrefusals : refusalsFrom 0 0 lines =
      [{ line := 3, text := "S\t1\tEX", error := .missingField .enter 3 2 },
        { line := 4, text := "C\t1", error := .cycleOverflow 9223372036854775807 1 }] := by
    decide +kernel
  have hinert : ∀ i ∈ ({2, 4} : Finset Nat), Inert "a" lines i := by
    intro i hi
    rcases Finset.mem_insert.mp hi with rfl | hi
    · exact Or.inr ⟨"Q\tx", List.mem_cons_of_mem _ List.mem_cons_self, by decide +kernel⟩
    · obtain rfl := Finset.mem_singleton.mp hi
      unfold Inert
      rw [warnings_replay, hrefusals]
      exact Or.inl ⟨_, List.mem_cons_of_mem _ List.mem_cons_self, rfl⟩
  obtain ⟨-, -, hwarnings, -⟩ := replay_without "a" lines {2, 4} hinert
  rw [warnings_replay "a" lines, hrefusals] at hwarnings
  exact ⟨hinert, hwarnings⟩

end Loader

end PipeTrace
