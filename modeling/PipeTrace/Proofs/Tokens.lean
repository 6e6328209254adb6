import PipeTrace.Proofs.Naming

/-!
# The stages that joined texts name

A text that names stages may be cut at any of its commas, and blanks before it do not matter:

* `StageSet.tokens_append_comma`   texts with a comma between them name what either of them names;
* `StageSet.tokens_intercalate`    so do texts with a comma and blanks between them;
* `StageSet.tokens_text`           a displayed set of plain stages names its members.

All members of a set that texts can name are plain.  So the set is named again by the text that
displays it, and sets that are displayed alike are equal (`StageSet.ofArgs?_text`).
-/

set_option autoImplicit false

namespace PipeTrace

namespace StageSet

theorem ofList_toList (s : StageSet) : ofList s.toList = s :=
  ext_mem fun _ => mem_toList_ofList

/-! ## joined texts -/

theorem tokens_append_comma (v w : String) : tokens (v ++ "," ++ w) = tokens v ++ tokens w := by
  have hpieces : (v ++ "," ++ w).toList.splitOn ',' =
      v.toList.splitOn ',' ++ w.toList.splitOn ',' := by
    rw [String.toList_append, String.toList_append, List.append_assoc]
    exact List.splitOn_append_cons_self _ _
  unfold tokens
  rw [hpieces, List.map_append, List.filter_append, List.map_append]

/-- blanks before a text go to its first piece, which is trimmed -/
theorem tokens_blanks_append {blanks : String} (h : Text.AllBlank blanks.toList) (v : String) :
    tokens (blanks ++ v) = tokens v := by
  obtain ⟨first, rest, hpieces⟩ := List.exists_cons_of_ne_nil (List.splitOn_ne_nil ',' v.toList)
  have hblanks : ∀ bs, Text.AllBlank bs →
      (bs ++ v.toList).splitOn ',' = (bs ++ first) :: rest := by
    intro bs hbs
    induction bs with
    | nil => exact hpieces
    | cons b bs ih =>
      have hb : ¬ b = ',' := by
        rintro rfl
        exact absurd (hbs _ List.mem_cons_self) (by decide)
      rw [List.cons_append, List.splitOn_cons_eq_if_modifyHead, if_neg (by simpa using hb),
        ih fun c hc => hbs c (List.mem_cons_of_mem b hc), List.modifyHead_cons, List.cons_append]
  have htrim : Text.trim (blanks.toList ++ first) = Text.trim first := by
    have haround := Text.trim_around h first Text.allBlank_nil
    rwa [List.append_nil] at haround
  unfold tokens
  rw [String.toList_append, hblanks _ h, hpieces, List.map_cons, List.map_cons, htrim]

/-- texts with a comma between them, and maybe blanks after it, name what any of them names -/
theorem tokens_intercalate (blanks : String) (h : Text.AllBlank blanks.toList)
    (values : List String) :
    tokens (("," ++ blanks).intercalate values) = values.flatMap tokens := by
  induction values with
  | nil => rfl
  | cons value values ih =>
    cases values with
    | nil => rw [String.intercalate_singleton, List.flatMap_singleton]
    | cons next rest =>
      have hjoin : ("," ++ blanks).intercalate (value :: next :: rest) =
          value ++ "," ++ (blanks ++ ("," ++ blanks).intercalate (next :: rest)) := by
        rw [String.intercalate_cons_cons]
        simp only [String.append_assoc]
      rw [List.flatMap_cons, hjoin, tokens_append_comma, tokens_blanks_append h, ih]

/-! ## displayed sets -/

theorem tokens_text {s : StageSet} (h : ∀ stage ∈ s.toList, Plain stage) :
    tokens s.text = s.toList := by
  unfold text
  calc tokens (", ".intercalate s.toList)
      = s.toList.flatMap tokens := tokens_intercalate " " (by decide) s.toList
    _ = s.toList.flatMap fun stage => [stage] :=
      List.flatMap_congr fun stage hstage => (h stage hstage).tokens_eq
    _ = s.toList := List.flatMap_singleton' s.toList

theorem toList_ne_nil_of_ofArgs? {values : List String} {s : StageSet}
    (h : ofArgs? values = some s) : s.toList ≠ [] := by
  unfold ofArgs? at h
  split at h
  · cases h
    decide
  · simp only at h
    split at h
    · cases h
    · rename_i hsome
      cases h
      obtain ⟨stage, hstage⟩ := List.exists_mem_of_ne_nil _ hsome
      exact List.ne_nil_of_mem (mem_toList_ofList.mpr hstage)

theorem ofArgs?_text_of_plain {s : StageSet} (hne : s.toList ≠ [])
    (hplain : ∀ stage ∈ s.toList, Plain stage) : ofArgs? [s.text] = some s := by
  unfold ofArgs?
  rw [if_neg (List.cons_ne_nil _ _), List.flatMap_singleton, tokens_text hplain]
  exact (if_neg hne).trans (congrArg some s.ofList_toList)

/-- **A displayed set of stages names itself.**  A set that some texts name is not empty, its members
are plain, the text that displays it names it again, and no other set that can be named is displayed
alike. -/
theorem ofArgs?_text {values : List String} {s : StageSet} (h : ofArgs? values = some s) :
    ofArgs? [s.text] = some s ∧
    (∀ values' s', ofArgs? values' = some s' → s'.text = s.text → s' = s) ∧
    s.toList ≠ [] ∧ ∀ stage ∈ s.toList, Plain stage := by
  have hagain : ∀ {values' s'}, ofArgs? values' = some s' → ofArgs? [s'.text] = some s' := fun h' =>
    ofArgs?_text_of_plain (toList_ne_nil_of_ofArgs? h') fun _ hstage =>
      plain_of_contains h' (contains_iff_mem_toList.mpr hstage)
  refine ⟨hagain h, ?_, toList_ne_nil_of_ofArgs? h, ?_⟩
  · intro values' s' h' htext
    have hs' := hagain h'
    rw [htext, hagain h] at hs'
    exact (Option.some_inj.mp hs').symm
  · exact fun _ hstage => plain_of_contains h (contains_iff_mem_toList.mpr hstage)

/-- blanks around a stage are dropped, those inside it stay, and so does a line break -/
theorem ofArgs?_text_of_two_values :
    let s := ofList ["x  y", "IF", "a\nb"]
    ofArgs? [" x  y , ,IF", "\u3000a\nb\t"] = some s ∧ s.text = "IF, a\nb, x  y" ∧
    ofArgs? ["IF, a\nb, x  y"] = some s := by
  intro s
  have hs : ofArgs? [" x  y , ,IF", "\u3000a\nb\t"] = some s := by decide +kernel
  have htext : s.text = "IF, a\nb, x  y" := by decide +kernel
  have hagain := (ofArgs?_text hs).1
  rw [htext] at hagain
  exact ⟨hs, htext, hagain⟩

end StageSet

end PipeTrace
