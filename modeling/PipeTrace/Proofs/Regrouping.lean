import PipeTrace.Proofs.Tokens

/-!
# Regrouped texts

The set that texts name is known from the stages that any of them names:

* `StageSet.named`     the stages of the set, none if there is no set;
* `StageSet.pieces`    what stands between the commas of a text, blank or not;
* `StageSet.Spaced`    pieces with blanks around them and blank pieces between them.

Only the union of these stages matters (`StageSet.ofArgs?_congr`), not the texts that they come
from, so texts may be repeated, put in another order, joined with commas and spaced out.
-/

set_option autoImplicit false

namespace PipeTrace

namespace StageSet

/-! ## the stages of pieces -/

/-- the pieces of a text between commas, as they stand there -/
def pieces (value : String) : List (List Char) := value.toList.splitOn ','

/-- the stages that pieces name -/
def stagesOf (ps : List (List Char)) : List String :=
  ((ps.map Text.trim).filter (· ≠ [])).map String.ofList

/-- the second list has the pieces of the first one in their order, each of them maybe with blanks
around it, and maybe blank pieces between them -/
inductive Spaced : List (List Char) → List (List Char) → Prop
  | nil : Spaced [] []
  | around {before after : List Char} {ps qs : List (List Char)} (piece : List Char)
    (hbefore : Text.AllBlank before) (hafter : Text.AllBlank after) (h : Spaced ps qs) :
    Spaced (piece :: ps) ((before ++ piece ++ after) :: qs)
  | blank {piece : List Char} {ps qs : List (List Char)} (hpiece : Text.AllBlank piece)
    (h : Spaced ps qs) : Spaced ps (piece :: qs)

theorem tokens_eq_stagesOf (value : String) : tokens value = stagesOf (pieces value) := rfl

theorem pieces_ne_nil (value : String) : pieces value ≠ [] := List.splitOn_ne_nil ',' _

theorem stagesOf_append (ps qs : List (List Char)) :
    stagesOf (ps ++ qs) = stagesOf ps ++ stagesOf qs := by
  unfold stagesOf
  rw [List.map_append, List.filter_append, List.map_append]

theorem flatMap_tokens (values : List String) :
    values.flatMap tokens = stagesOf (values.flatMap pieces) := by
  induction values with
  | nil => rfl
  | cons value values ih =>
    rw [List.flatMap_cons, List.flatMap_cons, stagesOf_append, ih, tokens_eq_stagesOf]

theorem stagesOf_cons_congr {p q : List Char} (h : Text.trim p = Text.trim q)
    (ps : List (List Char)) : stagesOf (p :: ps) = stagesOf (q :: ps) := by
  unfold stagesOf
  rw [List.map_cons, List.map_cons, h]

theorem stagesOf_cons_blank {p : List Char} (h : Text.AllBlank p) (ps : List (List Char)) :
    stagesOf (p :: ps) = stagesOf ps := by
  unfold stagesOf
  rw [List.map_cons, Text.trim_eq_nil_iff.mpr h, List.filter_cons_of_neg (by simp)]

theorem stagesOf_eq_nil_iff {ps : List (List Char)} :
    stagesOf ps = [] ↔ ∀ piece ∈ ps, Text.AllBlank piece := by
  unfold stagesOf
  rw [List.map_eq_nil_iff, List.filter_eq_nil_iff, List.forall_mem_map]
  refine forall₂_congr fun piece _ => ?_
  rw [decide_eq_true_eq, not_not, Text.trim_eq_nil_iff]

theorem Spaced.stagesOf_eq {ps qs : List (List Char)} (h : Spaced ps qs) :
    stagesOf qs = stagesOf ps := by
  induction h with
  | nil => rfl
  | @around before after ps qs piece hbefore hafter _ ih =>
    rw [stagesOf_cons_congr (Text.trim_around hbefore piece hafter), ← List.singleton_append,
      stagesOf_append, ih, ← stagesOf_append, List.singleton_append]
  | blank hpiece _ ih => rw [stagesOf_cons_blank hpiece, ih]

theorem Spaced.ne_nil {ps qs : List (List Char)} (h : Spaced ps qs) (hps : ps ≠ []) : qs ≠ [] := by
  cases h with
  | nil => exact hps
  | around => exact List.cons_ne_nil _ _
  | blank => exact List.cons_ne_nil _ _

/-! ## the set that texts name -/

/-- the stages of the set that texts name, none if they name no set -/
def named (values : List String) : Set String :=
  {stage | ∃ s, ofArgs? values = some s ∧ s.contains stage = true}

variable {vs ws : List String}

theorem ofArgs?_of_ne_nil (hvs : vs ≠ []) :
    ofArgs? vs = if vs.flatMap tokens = [] then none else some (ofList (vs.flatMap tokens)) :=
  if_neg hvs

theorem mem_named_iff (hvs : vs ≠ []) {stage : String} :
    stage ∈ named vs ↔ stage ∈ vs.flatMap tokens := by
  show (∃ s, ofArgs? vs = some s ∧ s.contains stage = true) ↔ _
  rw [ofArgs?_of_ne_nil hvs]
  by_cases hnone : vs.flatMap tokens = []
  · rw [if_pos hnone, hnone]
    exact iff_of_false nofun nofun
  · rw [if_neg hnone]
    simp only [Option.some_inj, exists_eq_left', contains_iff_mem_toList, mem_toList_ofList]

/-- texts that name the same stages name the same set -/
theorem ofArgs?_congr (hvs : vs ≠ []) (hws : ws ≠ [])
    (h : ∀ stage, stage ∈ vs.flatMap tokens ↔ stage ∈ ws.flatMap tokens) :
    ofArgs? vs = ofArgs? ws := by
  have hnil : vs.flatMap tokens = [] ↔ ws.flatMap tokens = [] := by
    simp only [List.eq_nil_iff_forall_not_mem, h]
  have hset : ofList (vs.flatMap tokens) = ofList (ws.flatMap tokens) := by
    refine ext_mem fun stage => ?_
    rw [mem_toList_ofList, mem_toList_ofList, h]
  rw [ofArgs?_of_ne_nil hvs, ofArgs?_of_ne_nil hws, hset]
  exact if_congr hnil rfl rfl

theorem ofArgs?_congr_mem (hvs : vs ≠ []) (h : ∀ v, v ∈ ws ↔ v ∈ vs) :
    ofArgs? ws = ofArgs? vs := by
  have hws : ws ≠ [] := by
    obtain ⟨v, hv⟩ := List.exists_mem_of_ne_nil vs hvs
    exact List.ne_nil_of_mem ((h v).mpr hv)
  refine ofArgs?_congr hws hvs fun stage => ?_
  simp only [List.mem_flatMap, h]

/-- some of the texts may be joined with commas, wherever they stand -/
theorem ofArgs?_joined (hvs : vs ≠ []) {group before after : List String}
    (h : vs.Perm (group ++ before ++ after)) :
    ofArgs? (before ++ ",".intercalate group :: after) = ofArgs? vs := by
  have hjoin : tokens (",".intercalate group) = group.flatMap tokens :=
    tokens_intercalate "" (by decide) group
  refine ofArgs?_congr (List.append_ne_nil_of_right_ne_nil _ (List.cons_ne_nil _ _)) hvs ?_
  intro stage
  rw [(h.flatMap_right tokens).mem_iff, List.flatMap_append, List.flatMap_cons, hjoin,
    List.flatMap_append, List.flatMap_append]
  simp only [List.mem_append]
  tauto

theorem ofArgs?_spaced (hvs : vs ≠ []) (h : Spaced (vs.flatMap pieces) (ws.flatMap pieces)) :
    ofArgs? ws = ofArgs? vs := by
  have hpieces : vs.flatMap pieces ≠ [] := by
    obtain ⟨v, hv⟩ := List.exists_mem_of_ne_nil vs hvs
    exact fun hnil => pieces_ne_nil v (List.flatMap_eq_nil_iff.mp hnil v hv)
  have hws : ws ≠ [] := by
    rintro rfl
    exact h.ne_nil hpieces rfl
  refine ofArgs?_congr hws hvs fun stage => ?_
  rw [flatMap_tokens, flatMap_tokens, h.stagesOf_eq]

theorem ofArgs?_eq_none_iff_blank (hvs : vs ≠ []) :
    ofArgs? vs = none ↔ ∀ v ∈ vs, ∀ piece ∈ pieces v, Text.AllBlank piece := by
  rw [ofArgs?_eq_none_iff, and_iff_right hvs, List.flatMap_eq_nil_iff]
  exact forall₂_congr fun v _ => stagesOf_eq_nil_iff

theorem named_append (hvs : vs ≠ []) (hws : ws ≠ []) :
    named (vs ++ ws) = named vs ∪ named ws := by
  ext stage
  rw [Set.mem_union, mem_named_iff hvs, mem_named_iff hws,
    mem_named_iff (List.append_ne_nil_of_left_ne_nil hvs ws), List.flatMap_append, List.mem_append]

/-- **Only the union of the named stages matters.**  Texts name the same set in any order, however
often each of them is given, joined with commas in any groups, and with blanks and blank pieces
anywhere.  They name none if and only if all their pieces are blank, and more texts name the stages
of either. -/
theorem ofArgs?_regrouped (hvs : vs ≠ []) :
    (∀ ws, (∀ v, v ∈ ws ↔ v ∈ vs) → ofArgs? ws = ofArgs? vs) ∧
    (∀ group before after, vs.Perm (group ++ before ++ after) →
      ofArgs? (before ++ ",".intercalate group :: after) = ofArgs? vs) ∧
    ofArgs? [",".intercalate vs] = ofArgs? vs ∧
    (∀ ws, Spaced (vs.flatMap pieces) (ws.flatMap pieces) → ofArgs? ws = ofArgs? vs) ∧
    (ofArgs? vs = none ↔ ∀ v ∈ vs, ∀ piece ∈ pieces v, Text.AllBlank piece) ∧
    ∀ ws, ws ≠ [] → named (vs ++ ws) = named vs ∪ named ws := by
  have hall : vs.Perm (vs ++ [] ++ []) := by
    rw [List.append_nil, List.append_nil]
  exact ⟨fun ws => ofArgs?_congr_mem hvs, fun group before after => ofArgs?_joined hvs,
    ofArgs?_joined hvs hall, fun ws => ofArgs?_spaced hvs, ofArgs?_eq_none_iff_blank hvs,
    fun ws => named_append hvs⟩

/-- two texts in the other order, one of them twice; in one text; with blanks, a comma before the
first stage and one after the last; and with a text that names no stage -/
theorem ofArgs?_regrouped_of_two :
    let vs := ["IF, EX", "WB"]
    vs ≠ [] ∧ ofArgs? ["WB", "IF, EX", "WB"] = ofArgs? vs ∧ ofArgs? ["IF, EX,WB"] = ofArgs? vs ∧
    ofArgs? [",IF\t", "\u3000 EX,WB\n, "] = ofArgs? vs ∧ ofArgs? vs ≠ none ∧
    named (vs ++ [" ,"]) = named vs ∪ named [" ,"] := by
  intro vs
  have hvs : vs ≠ [] := List.cons_ne_nil _ _
  obtain ⟨hmem, -, hjoined, hspaced, hnone, hnamed⟩ := ofArgs?_regrouped hvs
  have hpieces : vs.flatMap pieces = [['I', 'F'], [' ', 'E', 'X'], ['W', 'B']] := by
    decide +kernel
  have hspread : [",IF\t", "\u3000 EX,WB\n, "].flatMap pieces =
      [[], ['I', 'F', '\t'], ['\u3000', ' ', 'E', 'X'], ['W', 'B', '\n'], [' ']] := by
    decide +kernel
  refine ⟨hvs, hmem _ (by simp [vs, or_comm]), hjoined, hspaced _ ?_, ?_,
    hnamed [" ,"] (List.cons_ne_nil _ _)⟩
  · rw [hpieces, hspread]
    have hlast : Spaced [['W', 'B']] [['W', 'B', '\n'], [' ']] :=
      @Spaced.around [] ['\n'] _ _ ['W', 'B'] (by decide) (by decide) (.blank (by decide) .nil)
    have hsecond : Spaced [[' ', 'E', 'X'], ['W', 'B']]
        [['\u3000', ' ', 'E', 'X'], ['W', 'B', '\n'], [' ']] :=
      @Spaced.around ['\u3000'] [] _ _ [' ', 'E', 'X'] (by decide) (by decide) hlast
    exact .blank (by decide)
      (@Spaced.around [] ['\t'] _ _ ['I', 'F'] (by decide) (by decide) hsecond)
  · rw [ne_eq, hnone]
    intro hblank
    have hfirst : ['I', 'F'] ∈ pieces "IF, EX" := by decide +kernel
    exact absurd (hblank "IF, EX" List.mem_cons_self _ hfirst) (by decide)

end StageSet

end PipeTrace
