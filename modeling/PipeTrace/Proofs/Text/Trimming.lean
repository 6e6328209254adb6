import Mathlib.Data.List.DropRight
import PipeTrace.Text.Blank

/-!
# Trimmed texts and the pieces of a text

Trimming changes nothing at an end of a text that is no blank (`trimStart_eq_self_iff`,
`trimEnd_eq_self_iff`), so it changes nothing the second time (`trim_trim`).  Blanks that are put
around a text are taken off again, together with those it had (`trim_around`).  The pieces of a text
between separators hold no separator, and the last piece ends as the text does.
-/

set_option autoImplicit false

namespace PipeTrace.Text

variable {cs : List Char}

/-! ## trimmed texts -/

theorem trimStart_eq_self_iff :
    trimStart cs = cs ↔ ∀ c, cs.head? = some c → isBlank c = false := by
  cases cs with
  | nil => exact iff_of_true rfl fun c hc => nomatch hc
  | cons c cs =>
    unfold trimStart
    rw [List.dropWhile_eq_self_iff, List.head?_cons]
    constructor
    · intro h d hd
      cases hd
      exact Bool.eq_false_iff.mpr (h (Nat.zero_lt_succ _))
    · intro h _
      exact Bool.eq_false_iff.mp (h c rfl)

theorem trimEnd_eq_self_iff :
    trimEnd cs = cs ↔ ∀ c, cs.getLast? = some c → isBlank c = false := by
  have hstart : trimStart cs.reverse = cs.reverse ↔
      ∀ c, cs.reverse.head? = some c → isBlank c = false := trimStart_eq_self_iff
  rw [List.head?_reverse] at hstart
  rw [← hstart]
  unfold trimEnd trimStart
  exact List.reverse_eq_iff

theorem trimStart_isSuffix (cs : List Char) : trimStart cs <:+ cs := List.dropWhile_suffix _

theorem trimEnd_isPrefix (cs : List Char) : trimEnd cs <+: cs := List.rdropWhile_prefix _ cs

theorem mem_of_mem_trim {c : Char} (h : c ∈ trim cs) : c ∈ cs :=
  (trimStart_isSuffix cs).subset ((trimEnd_isPrefix _).subset h)

/-- what is left has no blank at its beginning, also after its end was trimmed -/
theorem trimStart_trim (cs : List Char) : trimStart (trim cs) = trim cs := by
  have hstart : trimStart (trimStart cs) = trimStart cs := List.dropWhile_idempotent _ cs
  rw [trimStart_eq_self_iff] at hstart ⊢
  intro c hc
  obtain ⟨rest, hrest⟩ := trimEnd_isPrefix (trimStart cs)
  apply hstart
  rw [← hrest, List.head?_append]
  unfold trim at hc
  rw [hc, Option.some_or]

theorem trimEnd_trim (cs : List Char) : trimEnd (trim cs) = trim cs :=
  List.rdropWhile_idempotent _ (trimStart cs)

theorem trim_trim (cs : List Char) : trim (trim cs) = trim cs := by
  show trimEnd (trimStart (trim cs)) = _
  rw [trimStart_trim, trimEnd_trim]

theorem trim_eq_self (hhead : ∀ c, cs.head? = some c → isBlank c = false)
    (hlast : ∀ c, cs.getLast? = some c → isBlank c = false) : trim cs = cs := by
  unfold trim
  rw [trimStart_eq_self_iff.mpr hhead, trimEnd_eq_self_iff.mpr hlast]

theorem trim_eq_self_of_solid (h : ∀ c ∈ cs, isBlank c = false) : trim cs = cs :=
  trim_eq_self (fun c hc => h c (List.mem_of_head? hc)) fun c hc => h c (List.mem_of_getLast? hc)

/-! ## blanks around a text -/

/-- the text holds nothing but blanks -/
def AllBlank (cs : List Char) : Prop := ∀ c ∈ cs, isBlank c = true

instance (cs : List Char) : Decidable (AllBlank cs) :=
  List.decidableBAll (fun c => isBlank c = true) cs

theorem allBlank_nil : AllBlank [] := nofun

variable {before after : List Char}

theorem trimStart_eq_nil_iff : trimStart cs = [] ↔ AllBlank cs := List.dropWhile_eq_nil_iff

theorem trimEnd_eq_nil_iff : trimEnd cs = [] ↔ AllBlank cs := List.rdropWhile_eq_nil_iff

theorem trimEnd_append_blanks (cs : List Char) (h : AllBlank after) :
    trimEnd (cs ++ after) = trimEnd cs := by
  unfold trimEnd
  rw [List.reverse_append, List.dropWhile_append_of_pos fun c hc => h c (List.mem_reverse.mp hc)]

theorem trimEnd_append_of_ne_nil (before : List Char) (h : trimEnd cs ≠ []) :
    trimEnd (before ++ cs) = before ++ trimEnd cs := by
  have hrev : ¬ (cs.reverse.dropWhile isBlank).isEmpty = true := by
    intro hempty
    exact h (List.reverse_eq_nil_iff.mpr (List.isEmpty_iff.mp hempty))
  unfold trimEnd
  rw [List.reverse_append, List.dropWhile_append, if_neg hrev, List.reverse_append,
    List.reverse_reverse]

theorem trim_around (hbefore : AllBlank before) (cs : List Char) (hafter : AllBlank after) :
    trim (before ++ cs ++ after) = trim cs := by
  unfold trim
  have hstart : trimStart (before ++ cs ++ after) = trimStart (cs ++ after) := by
    rw [List.append_assoc]
    exact List.dropWhile_append_of_pos hbefore
  rw [hstart]
  by_cases hcs : trimStart cs = []
  · have hnil : trimStart (cs ++ after) = [] := by
      rw [trimStart_eq_nil_iff] at hcs ⊢
      exact List.forall_mem_append.mpr ⟨hcs, hafter⟩
    rw [hcs, hnil]
  · have hkeep : trimStart (cs ++ after) = trimStart cs ++ after := by
      have hne : ¬ (cs.dropWhile isBlank).isEmpty = true := fun h => hcs (List.isEmpty_iff.mp h)
      exact List.dropWhile_append.trans (if_neg hne)
    rw [hkeep, trimEnd_append_blanks _ hafter]

theorem trim_eq_nil_iff : trim cs = [] ↔ AllBlank cs := by
  constructor
  · intro h
    have hall : AllBlank (trimStart cs) := trimEnd_eq_nil_iff.mp h
    have hstart : trimStart (trimStart cs) = [] := trimStart_eq_nil_iff.mpr hall
    -- what is left after its beginning was trimmed is blank only if nothing is left
    have hidem : trimStart (trimStart cs) = trimStart cs := List.dropWhile_idempotent _ cs
    rwa [hidem, trimStart_eq_nil_iff] at hstart
  · intro h
    unfold trim
    rw [trimStart_eq_nil_iff.mpr h, trimEnd_nil]

/-! ## the pieces between separators -/

section
variable {α : Type} {sep : α}

theorem intercalate_concat {pieces : List (List α)} (h : pieces ≠ []) (piece : List α) :
    [sep].intercalate (pieces ++ [piece]) = [sep].intercalate pieces ++ sep :: piece := by
  induction pieces with
  | nil => exact absurd rfl h
  | cons first rest ih =>
    cases rest with
    | nil =>
      rw [List.singleton_append, List.intercalate_cons_cons, List.intercalate_singleton,
        List.intercalate_singleton, List.append_assoc, List.singleton_append]
    | cons second rest =>
      have hrest := ih (List.cons_ne_nil second rest)
      rw [List.cons_append] at hrest
      rw [List.cons_append, List.cons_append, List.intercalate_cons_cons, hrest,
        List.intercalate_cons_cons, List.append_assoc (first ++ [sep])]

theorem head?_intercalate {piece : List α} (h : piece ≠ []) (pieces : List (List α)) :
    ([sep].intercalate (piece :: pieces)).head? = piece.head? := by
  cases pieces with
  | nil => rw [List.intercalate_singleton]
  | cons second rest =>
    rw [List.intercalate_cons_cons, List.append_assoc, List.head?_append_of_ne_nil _ h]

variable [DecidableEq α]

theorem notMem_of_mem_splitOn (as : List α) {piece : List α} (h : piece ∈ as.splitOn sep) :
    sep ∉ piece := by
  by_cases hsep : sep ∈ as
  · obtain ⟨before, after, heq, hbefore⟩ := List.eq_append_cons_of_mem hsep
    have hshorter : after.length < as.length := by
      rw [heq, List.length_append, List.length_cons]
      omega
    rw [heq, List.splitOn_append_cons_self_of_not_mem hbefore] at h
    rcases List.mem_cons.mp h with hpiece | hpiece
    · rw [hpiece]
      exact hbefore
    · exact notMem_of_mem_splitOn after hpiece
  · rw [List.splitOn_eq_singleton hsep, List.mem_singleton] at h
    rw [h]
    exact hsep
termination_by as.length

theorem subset_of_mem_splitOn (as : List α) {piece : List α} (h : piece ∈ as.splitOn sep) :
    piece ⊆ as := by
  by_cases hsep : sep ∈ as
  · obtain ⟨before, after, heq, hbefore⟩ := List.eq_append_cons_of_mem hsep
    have hshorter : after.length < as.length := by
      rw [heq, List.length_append, List.length_cons]
      omega
    rw [heq, List.splitOn_append_cons_self_of_not_mem hbefore] at h
    rw [heq]
    rcases List.mem_cons.mp h with hpiece | hpiece
    · rw [hpiece]
      exact List.subset_append_left before _
    · have hafter := subset_of_mem_splitOn after hpiece
      exact fun a ha => List.mem_append_right before (List.mem_cons_of_mem sep (hafter ha))
  · rw [List.splitOn_eq_singleton hsep, List.mem_singleton] at h
    rw [h]
    exact List.Subset.refl as
termination_by as.length

/-- a text of several pieces ends as the last one does, or in a separator if that is empty -/
theorem getLast?_of_splitOn {as : List α} {pieces : List (List α)} {piece : List α}
    (hpieces : pieces ≠ []) (h : as.splitOn sep = pieces ++ [piece]) :
    as.getLast? = some (piece.getLast?.getD sep) := by
  have has : as = [sep].intercalate pieces ++ sep :: piece := by
    rw [← intercalate_concat hpieces, ← h, List.intercalate_splitOn]
  rw [has, List.getLast?_append, List.getLast?_cons, Option.some_or]

end

theorem trimEnd_intercalate {sep : Char} {pieces : List (List Char)} {piece : List Char}
    (hpieces : pieces ≠ []) (hpiece : trimEnd piece ≠ []) :
    trimEnd ([sep].intercalate (pieces ++ [piece])) =
      [sep].intercalate (pieces ++ [trimEnd piece]) := by
  have hsep : trimEnd (sep :: piece) = sep :: trimEnd piece :=
    trimEnd_append_of_ne_nil [sep] hpiece
  have hne : trimEnd (sep :: piece) ≠ [] := by
    rw [hsep]
    exact List.cons_ne_nil _ _
  rw [intercalate_concat hpieces, intercalate_concat hpieces, trimEnd_append_of_ne_nil _ hne, hsep]

/-- the last of several pieces of a trimmed text is not empty and does not end in a blank -/
theorem last_of_splitOn_trim {sep : Char} (hsep : isBlank sep = true) {pieces : List (List Char)}
    {piece : List Char} (hpieces : pieces ≠ []) (h : (trim cs).splitOn sep = pieces ++ [piece]) :
    piece ≠ [] ∧ trimEnd piece = piece := by
  -- the trimmed text does not end in a blank, as it would before an empty piece
  have hend := trimEnd_eq_self_iff.mp (trimEnd_trim cs) _ (getLast?_of_splitOn hpieces h)
  constructor
  · rintro rfl
    exact Bool.noConfusion (hend.symm.trans hsep)
  · rw [trimEnd_eq_self_iff]
    intro c hc
    rw [hc] at hend
    exact hend

end PipeTrace.Text
