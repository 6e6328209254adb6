import Mathlib.Data.List.FinRange
import Mathlib.Logic.Equiv.Basic
import PipeTrace.Proofs.Findings
import PipeTrace.Proofs.Reference

/-!
# Lines in another order

A block of lines none of which moves the counter may be put in another order, as long as lines that
compete for one label, or for one stage of an instruction, keep theirs:

* `Chronicle.Steady`     no line of a block moves the counter;
* `Chronicle.competing`  two lines label one instruction, or let it enter one stage;
* `Reordering`           another order, in which competing lines keep theirs.

The records and the counter are the same after both, and the same lines are skipped for the same
reasons (`Loader.replay_reordered`).  For what a line of a steady block says does not depend on the
lines before it in the block, and so the marks that bear on one label, or on one stage, are made by
lines that keep their order.
-/

set_option autoImplicit false

namespace PipeTrace

/-! ## lists of which some members keep their order -/

section
variable {α β : Type} {as bs : List α} (place : Fin as.length ≃ Fin bs.length)
  (hget : ∀ i, bs.get (place i) = as.get i)
include hget

theorem perm_of_place : bs.Perm as := by
  have hidx : ((List.finRange as.length).map place).Perm (List.finRange bs.length) := by
    refine (List.perm_ext_iff_of_nodup ?_ (List.nodup_finRange _)).mpr fun j => ?_
    · exact (List.nodup_finRange _).map place.injective
    · refine iff_of_true (List.mem_map.mpr ⟨place.symm j, List.mem_finRange _, ?_⟩)
        (List.mem_finRange j)
      exact place.apply_symm_apply j
  have has : ((List.finRange as.length).map place).map bs.get = as := by
    rw [List.map_map]
    calc (List.finRange as.length).map (bs.get ∘ place)
        = (List.finRange as.length).map as.get := List.map_congr_left fun i _ => hget i
      _ = as := List.map_get_finRange as
  have h := hidx.map bs.get
  rw [has, List.map_get_finRange] at h
  exact h.symm

/-- members that keep their order make the same list -/
theorem filter_eq_of_place (p : α → Bool)
    (hkeeps : ∀ i j, i < j → p (as.get i) = true → p (as.get j) = true → place i < place j) :
    bs.filter p = as.filter p := by
  -- the indices of such members are moved to an ascending list, and a set has one such list only
  have hidx : (List.finRange bs.length).filter (p ∘ bs.get) =
      ((List.finRange as.length).filter (p ∘ as.get)).map place := by
    apply eq_of_pairwise_lt fun j => j
    · exact (List.pairwise_lt_finRange _).filter _
    · rw [List.pairwise_map]
      refine ((List.pairwise_lt_finRange _).filter _).imp_of_mem ?_
      intro i j hi hj hlt
      exact hkeeps i j hlt (List.mem_filter.mp hi).2 (List.mem_filter.mp hj).2
    · intro j
      rw [List.mem_filter, List.mem_map]
      constructor
      · rintro ⟨-, hj⟩
        refine ⟨place.symm j, List.mem_filter.mpr ⟨List.mem_finRange _, ?_⟩,
          place.apply_symm_apply j⟩
        show p (as.get (place.symm j)) = true
        rwa [← hget, place.apply_symm_apply]
      · rintro ⟨i, hi, rfl⟩
        refine ⟨List.mem_finRange _, ?_⟩
        show p (bs.get (place i)) = true
        rw [hget]
        exact (List.mem_filter.mp hi).2
  calc bs.filter p
      = ((List.finRange bs.length).map bs.get).filter p := by rw [List.map_get_finRange]
    _ = ((List.finRange bs.length).filter (p ∘ bs.get)).map bs.get := List.filter_map
    _ = ((List.finRange as.length).filter (p ∘ as.get)).map (bs.get ∘ place) := by
      rw [hidx, List.map_map]
    _ = ((List.finRange as.length).filter (p ∘ as.get)).map as.get :=
      List.map_congr_left fun i _ => hget i
    _ = ((List.finRange as.length).map as.get).filter p := List.filter_map.symm
    _ = as.filter p := by rw [List.map_get_finRange]

theorem filterMap_eq_of_place (f : α → Option β)
    (hkeeps : ∀ i j, i < j → (f (as.get i)).isSome → (f (as.get j)).isSome → place i < place j) :
    bs.filterMap f = as.filterMap f := by
  have hsome : ∀ l : List α, (l.filter fun a => (f a).isSome).filterMap f = l.filterMap f := by
    intro l
    rw [List.filterMap_filter]
    refine List.filterMap_congr fun a _ => ?_
    cases f a <;> rfl
  rw [← hsome bs, filter_eq_of_place place hget _ hkeeps, hsome as]

end

/-- the members that satisfy `p` stand together, and so the others are what is around them -/
theorem filter_between {α : Type} {p : α → Bool} {as bs cs : List α}
    (has : ∀ a ∈ as, p a = false) (hbs : ∀ b ∈ bs, p b = true) (hcs : ∀ c ∈ cs, p c = false) :
    (as ++ bs ++ cs).filter p = bs ∧ (as ++ bs ++ cs).filter (!p ·) = as ++ cs := by
  have hnone : ∀ l : List α, (∀ a ∈ l, p a = false) →
      l.filter p = [] ∧ l.filter (!p ·) = l := by
    intro l hl
    constructor
    · exact List.filter_eq_nil_iff.mpr fun a ha => by rw [hl a ha]; exact Bool.false_ne_true
    · exact List.filter_eq_self.mpr fun a ha => by rw [hl a ha]; rfl
  have hrest : bs.filter (!p ·) = [] :=
    List.filter_eq_nil_iff.mpr fun b hb => by rw [hbs b hb]; exact Bool.false_ne_true
  constructor
  · rw [List.filter_append, List.filter_append, (hnone as has).1, (hnone cs hcs).1,
      List.filter_eq_self.mpr hbs, List.nil_append, List.append_nil]
  · rw [List.filter_append, List.filter_append, (hnone as has).2, (hnone cs hcs).2, hrest,
      List.append_nil]

/-! ## lines that may change places -/

def Mark.cycleAt? (stage : String) : Mark → Option Int
  | .entered _ stage' cycle => if stage' = stage then some cycle else none
  | _ => none

theorem Mark.lookup_entries_eq_head? (ms : List Mark) (stage : String) :
    (ms.filterMap Mark.entry?).lookup stage = (ms.filterMap (Mark.cycleAt? stage)).head? := by
  induction ms with
  | nil => rfl
  | cons m ms ih =>
    cases m with
    | introduced _ => exact ih
    | labelled _ _ => exact ih
    | entered id stage' cycle =>
      show ((stage', cycle) :: ms.filterMap Mark.entry?).lookup stage = _
      by_cases h : stage' = stage
      · have hc : (Mark.entered id stage' cycle).cycleAt? stage = some cycle := if_pos h
        rw [List.filterMap_cons_some hc, List.head?_cons, h, List.lookup_cons_self]
      · have hc : (Mark.entered id stage' cycle).cycleAt? stage = none := if_neg h
        rw [List.lookup_cons, beq_eq_false_iff_ne.mpr (Ne.symm h), List.filterMap_cons_none hc]
        exact ih

namespace Chronicle

def movesCounter (line : String) : Bool :=
  match Event.parse line with
  | .ok (some (.advance _)) => true
  | .ok (some (.setCycle _)) => true
  | _ => false

/-- no line moves the running counter -/
def Steady (block : List String) : Prop := ∀ line ∈ block, movesCounter line = false

/-- both lines label one instruction, or both let it enter one stage -/
def competing (line line' : String) : Bool :=
  match Event.parse line, Event.parse line' with
  | .ok (some (.label id _)), .ok (some (.label id' _)) => id = id'
  | .ok (some (.enter id _ stage)), .ok (some (.enter id' _ stage')) => id = id' ∧ stage = stage'
  | _, _ => false

end Chronicle

/-- another order of lines, in which competing lines stay in their order -/
structure Reordering (lines lines' : List String) where
  /-- where a line goes -/
  place : Fin lines.length ≃ Fin lines'.length
  get_place : ∀ i, lines'.get (place i) = lines.get i
  keeps : ∀ i j, i < j → Chronicle.competing (lines.get i) (lines.get j) = true →
    place i < place j

/-- the warning is about one of the `n` lines that follow the first `k` -/
def Warning.within (k n : Nat) (w : Warning) : Bool := k < w.line ∧ w.line ≤ k + n

namespace Chronicle

section
variable {n : Int} {line line' : String} {id : InstrId}

theorem next_of_not_movesCounter (h : movesCounter line = false) (n : Int) : next n line = n := by
  unfold movesCounter at h
  unfold next
  split
  · rename_i hp
    rw [hp] at h
    cases h
  · rename_i hp
    rw [hp] at h
    cases h
  · rfl

theorem competing_of_labelled {text text' : String} (h : mark? n line = some (.labelled id text))
    (h' : mark? n line' = some (.labelled id text')) : competing line line' = true := by
  unfold competing
  rw [parse_of_mark?_labelled h, parse_of_mark?_labelled h']
  exact decide_eq_true rfl

theorem competing_of_entered {stage : String} {cycle cycle' : Int}
    (h : mark? n line = some (.entered id stage cycle))
    (h' : mark? n line' = some (.entered id stage cycle')) : competing line line' = true := by
  obtain ⟨relative, hp⟩ := parse_of_mark?_entered h
  obtain ⟨relative', hp'⟩ := parse_of_mark?_entered h'
  unfold competing
  rw [hp, hp']
  exact decide_eq_true ⟨rfl, rfl⟩

end

/-! ## a block of steady lines -/

theorem Steady.next_head {line : String} {block : List String} (h : Steady (line :: block))
    (n : Int) : next n line = n := next_of_not_movesCounter (h line List.mem_cons_self) n

theorem Steady.tail {line : String} {block : List String} (h : Steady (line :: block)) :
    Steady block := fun line' hline' => h line' (List.mem_cons_of_mem line hline')

theorem Steady.take {block : List String} (h : Steady block) (k : Nat) : Steady (block.take k) :=
  fun line hline => h line (List.mem_of_mem_take hline)

section
variable {block : List String} (h : Steady block)
include h

theorem counterFrom_of_steady (n : Int) : counterFrom n block = n := by
  induction block with
  | nil => rfl
  | cons line block ih =>
    rw [counterFrom_cons, h.next_head]
    exact ih h.tail

theorem marksFrom_of_steady (n : Int) : marksFrom n block = block.filterMap (mark? n) := by
  induction block with
  | nil => rfl
  | cons line block ih =>
    rw [marksFrom, h.next_head, ih h.tail, List.filterMap_cons]
    cases mark? n line <;> rfl

theorem map_refusalsFrom_of_steady (n : Int) (k : Nat) :
    (refusalsFrom n k block).map (fun w => (w.text, w.error)) =
      block.filterMap fun line => (refusal? n line).map (line, ·) := by
  induction block generalizing k with
  | nil => rfl
  | cons line block ih =>
    rw [refusalsFrom, h.next_head, List.map_append, ih h.tail, List.filterMap_cons]
    cases refusal? n line <;> rfl

/-- the warnings about a block are those of its single lines -/
theorem mem_refusalsFrom_of_steady {n : Int} {k : Nat} (i : Fin block.length) (error : LineError) :
    { line := k + i + 1, text := block.get i, error } ∈ refusalsFrom n k block ↔
      refusal? n (block.get i) = some error := by
  rw [mem_refusalsFrom_iff]
  have htake : ∀ j, counterFrom n (block.take j) = n := fun j =>
    counterFrom_of_steady (h.take j) n
  constructor
  · rintro ⟨j, -, -, hrefusal⟩
    rwa [htake] at hrefusal
  · intro hrefusal
    refine ⟨i, rfl, List.getElem?_eq_getElem i.isLt, ?_⟩
    rwa [htake]

end

/-! ## two orders of a block -/

section
variable {block block' : List String} (σ : Reordering block block') (n : Int)
include σ

theorem filterMap_mark?_reordered {β : Type} (id : InstrId) (f : Mark → Option β)
    (hcompetes : ∀ line line' m m', mark? n line = some m → mark? n line' = some m' →
      m.id = id → m'.id = id → (f m).isSome → (f m').isSome → competing line line' = true) :
    ((block'.filterMap (mark? n)).filter (·.id = id)).filterMap f =
      ((block.filterMap (mark? n)).filter (·.id = id)).filterMap f := by
  have hmark : ∀ line, (((mark? n line).filter (·.id = id)).bind f).isSome →
      ∃ m, mark? n line = some m ∧ m.id = id ∧ (f m).isSome := by
    intro line hsome
    obtain ⟨b, hb⟩ := Option.isSome_iff_exists.mp hsome
    obtain ⟨m, hm, hf⟩ := Option.bind_eq_some_iff.mp hb
    obtain ⟨hm, hid⟩ := Option.filter_eq_some_iff.mp hm
    exact ⟨m, hm, of_decide_eq_true hid, by rw [hf]; rfl⟩
  rw [List.filter_filterMap, List.filter_filterMap, List.filterMap_filterMap,
    List.filterMap_filterMap]
  refine filterMap_eq_of_place σ.place σ.get_place _ fun i j hlt hi hj => ?_
  obtain ⟨m, hm, hid, hf⟩ := hmark _ hi
  obtain ⟨m', hm', hid', hf'⟩ := hmark _ hj
  exact σ.keeps i j hlt (hcompetes _ _ m m' hm hm' hid hid' hf hf')

theorem labels_reordered (id : InstrId) :
    ((block'.filterMap (mark? n)).filter (·.id = id)).filterMap Mark.label? =
      ((block.filterMap (mark? n)).filter (·.id = id)).filterMap Mark.label? := by
  refine filterMap_mark?_reordered σ n id Mark.label? ?_
  intro line line' m m' hm hm' hid hid' hf hf'
  cases m with
  | introduced _ => cases hf
  | entered _ _ _ => cases hf
  | labelled i text =>
    cases m' with
    | introduced _ => cases hf'
    | entered _ _ _ => cases hf'
    | labelled j text' =>
      obtain rfl : i = id := hid
      obtain rfl : j = i := hid'
      exact competing_of_labelled hm hm'

theorem lookup_entries_reordered (id : InstrId) (stage : String) :
    (((block'.filterMap (mark? n)).filter (·.id = id)).filterMap Mark.entry?).lookup stage =
      (((block.filterMap (mark? n)).filter (·.id = id)).filterMap Mark.entry?).lookup stage := by
  have hstage : ∀ {i s cycle}, (Mark.cycleAt? stage (.entered i s cycle)).isSome → s = stage := by
    intro i s cycle hsome
    by_contra hs
    rw [show Mark.cycleAt? stage (.entered i s cycle) = none from if_neg hs] at hsome
    cases hsome
  rw [Mark.lookup_entries_eq_head?, Mark.lookup_entries_eq_head?]
  congr 1
  refine filterMap_mark?_reordered σ n id _ ?_
  intro line line' m m' hm hm' hid hid' hf hf'
  cases m with
  | introduced _ => cases hf
  | labelled _ _ => cases hf
  | entered i s cycle =>
    cases m' with
    | introduced _ => cases hf'
    | labelled _ _ => cases hf'
    | entered j s' cycle' =>
      obtain rfl : i = id := hid
      obtain rfl : j = i := hid'
      obtain rfl := hstage hf
      obtain rfl := hstage hf'
      exact competing_of_entered hm hm'

end

/-! ## a log around a block of steady lines -/

section
variable {before block after : List String} (h : Steady block)
include h

theorem counter_around :
    counter (before ++ block ++ after) = counterFrom (counter before) after := by
  unfold counter
  rw [counterFrom_append, counterFrom_append, counterFrom_of_steady h]

theorem marks_around :
    marks (before ++ block ++ after) =
      marks before ++ block.filterMap (mark? (counter before)) ++
        marksFrom (counter before) after := by
  unfold marks
  rw [marksFrom_append, marksFrom_append, counterFrom_append, marksFrom_of_steady h,
    counterFrom_of_steady h]
  rfl

theorem refusals_around :
    refusalsFrom 0 0 (before ++ block ++ after) =
      refusalsFrom 0 0 before ++ refusalsFrom (counter before) before.length block ++
        refusalsFrom (counter before) (before.length + block.length) after := by
  rw [refusalsFrom_append, refusalsFrom_append, counterFrom_append, counterFrom_of_steady h,
    List.length_append, Nat.zero_add, Nat.zero_add]
  rfl

/-- the warnings about the lines of the block, and all others -/
theorem filter_refusals_around (before after : List String) :
    (refusalsFrom 0 0 (before ++ block ++ after)).filter
        (·.within before.length block.length) =
      refusalsFrom (counter before) before.length block ∧
    (refusalsFrom 0 0 (before ++ block ++ after)).filter
        (!·.within before.length block.length) =
      refusalsFrom 0 0 before ++
        refusalsFrom (counter before) (before.length + block.length) after := by
  have hwithin : ∀ {w : Warning}, w.within before.length block.length = false ↔
      ¬ (before.length < w.line ∧ w.line ≤ before.length + block.length) :=
    decide_eq_false_iff_not
  rw [refusals_around h]
  refine filter_between ?_ ?_ ?_
  · intro w hw
    have := line_of_mem_refusalsFrom hw
    exact hwithin.mpr (by omega)
  · intro w hw
    exact decide_eq_true (line_of_mem_refusalsFrom hw)
  · intro w hw
    have := line_of_mem_refusalsFrom hw
    exact hwithin.mpr (by omega)

theorem mem_refusals_around_iff (i : Fin block.length) (error : LineError) :
    { line := before.length + i + 1, text := block.get i, error } ∈
        refusalsFrom 0 0 (before ++ block ++ after) ↔
      refusal? (counter before) (block.get i) = some error := by
  have hline : before.length < before.length + i + 1 ∧
      before.length + i + 1 ≤ before.length + block.length := by omega
  have hwithin : Warning.within before.length block.length
      { line := before.length + i + 1, text := block.get i, error } = true :=
    decide_eq_true hline
  rw [← mem_refusalsFrom_of_steady h, ← (filter_refusals_around h before after).1, List.mem_filter]
  exact (and_iff_left hwithin).symm

end

/-! ## a log with a reordered block -/

section
variable {before block block' after : List String} (σ : Reordering block block')
  (h : Steady block)
include σ

theorem perm_reordered : block'.Perm block := perm_of_place σ.place σ.get_place

include h

theorem steady_reordered : Steady block' := fun line hline =>
  h line ((perm_reordered σ).mem_iff.mp hline)

theorem named_reordered :
    named (before ++ block' ++ after) = named (before ++ block ++ after) := by
  unfold named
  apply List.toFinset_eq_of_perm
  rw [marks_around h, marks_around (steady_reordered σ h)]
  have hperm := (perm_reordered σ).filterMap (mark? (counter before))
  exact ((hperm.append_left _).append_right _).map Mark.id

theorem find?_replay_reordered (source : String) (id : InstrId) :
    (Loader.replay source (before ++ block' ++ after)).trace.find? id =
      (Loader.replay source (before ++ block ++ after)).trace.find? id := by
  apply Loader.find?_replay_congr
  · rw [named_reordered σ h]
  · unfold labels marksOf
    rw [marks_around h, marks_around (steady_reordered σ h)]
    simp only [List.filter_append, List.filterMap_append]
    rw [labels_reordered σ]
  · intro stage
    unfold entries marksOf
    rw [marks_around h, marks_around (steady_reordered σ h)]
    simp only [List.filter_append, List.filterMap_append, List.lookup_append]
    rw [lookup_entries_reordered σ]

end

end Chronicle

open Chronicle

namespace Loader

/-- **Lines that do not move the counter may be put in another order.** -/
theorem replay_reordered (source : String) (before after : List String)
    {block block' : List String} (σ : Reordering block block') (hsteady : Steady block) :
    let l := replay source (before ++ block ++ after)
    let l' := replay source (before ++ block' ++ after)
    let warnings := l.trace.warnings.toList
    let warnings' := l'.trace.warnings.toList
    l'.trace.records = l.trace.records ∧ l'.cycle = l.cycle ∧ l'.trace.lines = l.trace.lines ∧
    warnings'.filter (!·.within before.length block.length) =
      warnings.filter (!·.within before.length block.length) ∧
    ((warnings'.filter (·.within before.length block.length)).map fun w => (w.text, w.error)).Perm
      ((warnings.filter (·.within before.length block.length)).map fun w => (w.text, w.error)) ∧
    ∀ i error,
      { line := before.length + σ.place i + 1, text := block.get i, error } ∈ warnings' ↔
        { line := before.length + i + 1, text := block.get i, error } ∈ warnings := by
  intro l l' warnings warnings'
  have hsteady' := steady_reordered σ hsteady
  have hperm := perm_reordered σ
  have hwarnings := filter_refusals_around hsteady before after
  have hwarnings' := filter_refusals_around hsteady' before after
  rw [hperm.length_eq] at hwarnings'
  have hw : warnings = refusalsFrom 0 0 (before ++ block ++ after) := warnings_replay source _
  have hw' : warnings' = refusalsFrom 0 0 (before ++ block' ++ after) := warnings_replay source _
  refine ⟨?_, ?_, ?_, ?_, ?_, ?_⟩
  · exact Std.ExtTreeMap.ext_getElem? fun {id} => find?_replay_reordered σ hsteady source id
  · apply Int64.toInt.inj
    rw [toInt_cycle_replay, toInt_cycle_replay, counter_around hsteady, counter_around hsteady']
  · rw [lines_replay, lines_replay, List.length_append, List.length_append, List.length_append,
      List.length_append, hperm.length_eq]
  · rw [hw, hw', hwarnings'.2, hwarnings.2]
  · rw [hw, hw', hwarnings'.1, hwarnings.1, map_refusalsFrom_of_steady hsteady,
      map_refusalsFrom_of_steady hsteady']
    exact hperm.filterMap _
  · intro i error
    rw [hw, hw', mem_refusals_around_iff hsteady, ← σ.get_place,
      mem_refusals_around_iff hsteady']

/-- labels and entries of instruction 7 stay in their order, an entry out of range and a malformed
line among them; the warning about the latter moves from line 4 to line 2 -/
theorem replay_reordered_overflow :
    let block := ["L\t7\t0\tadd", "S\t7\t1\tEX", "I\tx", "L\t7\t0\tmul", "S\t7\t0\tEX"]
    let block' := ["I\tx", "S\t7\t1\tEX", "L\t7\t0\tadd", "S\t7\t0\tEX", "L\t7\t0\tmul"]
    let l := replay "a" (["C=\t9223372036854775807"] ++ block ++ ["C\t-1"])
    let l' := replay "a" (["C=\t9223372036854775807"] ++ block' ++ ["C\t-1"])
    Steady block ∧ l'.trace.records = l.trace.records ∧
    { line := 2, text := "I\tx", error := .invalidInteger .instructionId "x" .invalidDigit } ∈
      l'.trace.warnings.toList := by
  intro block block' l l'
  let σ : Reordering block block' :=
    { place := (Equiv.swap (0 : Fin 5) 2).trans (Equiv.swap 3 4)
      get_place := by decide
      keeps := by decide +kernel }
  have hsteady : Steady block := by
    unfold Steady
    decide +kernel
  obtain ⟨hrecords, -, -, -, -, hmoved⟩ := replay_reordered "a"
    ["C=\t9223372036854775807"] ["C\t-1"] σ hsteady
  have hmoved := hmoved (2 : Fin 5)
  refine ⟨hsteady, hrecords, (hmoved _).mpr ?_⟩
  rw [warnings_replay]
  decide +kernel

end Loader

end PipeTrace
