import PipeTrace.Proofs.Layout

/-!
# Colour only adds terminal codes

A terminal code is an escape, an opening bracket, digits and an `m`.  `Style.erase` takes all codes
out of a text, from its beginning to its end.

* `Style.afterCode?_eq_some_iff`   what a code is;
* `Style.eraseCodes_append`        text without an escape is kept, whatever comes after it;
* `Fragment.erase_renderAll`       fragments without an escape, shown in colour, differ by codes only.

The texts of a report are its own words, the texts of numbers, and the names, labels and stages that
it quotes.  So it has no escape if those have none, whatever the findings are.
-/

set_option autoImplicit false

namespace PipeTrace

/-! ## texts without codes -/

namespace Style

/-- the character that begins a terminal code -/
def escape : Char := '\x1b'

/-- what follows the terminal code that a text begins with, if it begins with one -/
def afterCode? : List Char → Option (List Char)
  | '\x1b' :: '[' :: cs =>
    match cs.takeWhile Char.isDigit, cs.dropWhile Char.isDigit with
    | _ :: _, 'm' :: rest => some rest
    | _, _ => none
  | _ => none

theorem afterCode?_eq_some_iff {cs rest : List Char} :
    afterCode? cs = some rest ↔ ∃ digits, digits ≠ [] ∧ (∀ c ∈ digits, c.isDigit = true) ∧
      cs = escape :: '[' :: (digits ++ 'm' :: rest) := by
  constructor
  · intro h
    unfold afterCode? at h
    split at h
    · rename_i body
      split at h
      · rename_i d ds after hdigits hrest
        cases h
        refine ⟨d :: ds, List.cons_ne_nil _ _, ?_, ?_⟩
        · intro c hc
          rw [← hdigits] at hc
          exact List.mem_takeWhile_imp hc
        · rw [← hdigits, ← hrest, List.takeWhile_append_dropWhile]
          rfl
      · cases h
    · cases h
  · rintro ⟨digits, hne, hdigits, rfl⟩
    have htake : (digits ++ 'm' :: rest).takeWhile Char.isDigit = digits := by
      rw [List.takeWhile_append_of_pos hdigits, List.takeWhile_cons_of_neg (by decide),
        List.append_nil]
    have hdrop : (digits ++ 'm' :: rest).dropWhile Char.isDigit = 'm' :: rest := by
      rw [List.dropWhile_append_of_pos hdigits, List.dropWhile_cons_of_neg (by decide)]
    obtain ⟨d, ds, rfl⟩ := List.exists_cons_of_ne_nil hne
    unfold escape afterCode?
    simp only [htake, hdrop]

theorem length_lt_of_afterCode? {cs rest : List Char} (h : afterCode? cs = some rest) :
    rest.length < cs.length := by
  obtain ⟨digits, -, -, rfl⟩ := afterCode?_eq_some_iff.mp h
  simp only [List.length_cons, List.length_append]
  omega

theorem afterCode?_cons_of_ne {c : Char} (h : c ≠ escape) (cs : List Char) :
    afterCode? (c :: cs) = none := by
  refine Option.eq_none_iff_forall_ne_some.mpr fun rest hrest => ?_
  obtain ⟨digits, -, -, heq⟩ := afterCode?_eq_some_iff.mp hrest
  exact h (List.cons.inj heq).1

def eraseCodes : List Char → List Char
  | [] => []
  | c :: cs =>
    match _h : afterCode? (c :: cs) with
    | some rest => eraseCodes rest
    | none => c :: eraseCodes cs
termination_by cs => cs.length
decreasing_by
  · exact length_lt_of_afterCode? ‹_›
  · exact Nat.lt_succ_self _

/-- the text without its terminal codes -/
def erase (s : String) : String := String.ofList (eraseCodes s.toList)

example : erase "\x1b[31m\x1b[1mred\x1b[0m\x1b[x[1m\x1b[m" = "red\x1b[x[1m\x1b[m" := by cbv

theorem eraseCodes_nil : eraseCodes [] = [] := by
  unfold eraseCodes
  rfl

theorem eraseCodes_of_afterCode? {cs rest : List Char} (h : afterCode? cs = some rest) :
    eraseCodes cs = eraseCodes rest := by
  obtain ⟨c, cs, rfl⟩ : ∃ c ds, cs = c :: ds := by
    obtain ⟨digits, -, -, rfl⟩ := afterCode?_eq_some_iff.mp h
    exact ⟨_, _, rfl⟩
  rw [eraseCodes]
  split
  · rename_i rest' hrest
    rw [h] at hrest
    cases hrest
    rfl
  · rename_i hnone
    rw [h] at hnone
    cases hnone

theorem eraseCodes_cons_of_ne {c : Char} (h : c ≠ escape) (cs : List Char) :
    eraseCodes (c :: cs) = c :: eraseCodes cs := by
  have hnone := afterCode?_cons_of_ne h cs
  rw [eraseCodes]
  split
  · rename_i rest hrest
    rw [hnone] at hrest
    cases hrest
  · rfl

theorem eraseCodes_append {cs : List Char} (h : escape ∉ cs) (ds : List Char) :
    eraseCodes (cs ++ ds) = cs ++ eraseCodes ds := by
  induction cs with
  | nil => rfl
  | cons c cs ih =>
    obtain ⟨hc, hcs⟩ := not_or.mp (List.mem_cons.not.mp h)
    rw [List.cons_append, eraseCodes_cons_of_ne (Ne.symm hc), ih hcs, List.cons_append]

/-- the codes of one style, one after the other -/
theorem eraseCodes_code {digits : List Char} (hne : digits ≠ [])
    (hdigits : digits.all Char.isDigit = true) (ds : List Char) :
    eraseCodes (escape :: '[' :: (digits ++ 'm' :: ds)) = eraseCodes ds :=
  eraseCodes_of_afterCode?
    (afterCode?_eq_some_iff.mpr ⟨digits, hne, List.all_eq_true.mp hdigits, rfl⟩)

theorem eraseCodes_codes (style : Style) (ds : List Char) :
    eraseCodes (style.codes.toList ++ ds) = eraseCodes ds := by
  cases style with
  | caution => exact @eraseCodes_code ['3', '3'] (by decide) (by decide) ds
  | headline =>
    exact (@eraseCodes_code ['3', '1'] (by decide) (by decide) _).trans
      (@eraseCodes_code ['1'] (by decide) (by decide) ds)
  | marker => exact @eraseCodes_code ['3', '1'] (by decide) (by decide) ds
  | heading => exact @eraseCodes_code ['1'] (by decide) (by decide) ds
  | success => exact @eraseCodes_code ['3', '2'] (by decide) (by decide) ds

theorem eraseCodes_reset (ds : List Char) : eraseCodes (reset.toList ++ ds) = eraseCodes ds :=
  @eraseCodes_code ['0'] (by decide) (by decide) ds

end Style

/-! ## fragments -/

namespace Fragment

open Text (Lacks)

theorem eraseCodes_render {f : Fragment} (h : Lacks Style.escape f.text) (ds : List Char) :
    Style.eraseCodes ((f.render true).toList ++ ds) =
      (f.render false).toList ++ Style.eraseCodes ds := by
  cases f with
  | plain text => exact Style.eraseCodes_append h ds
  | styled style text =>
    have htext : Style.escape ∉ text.toList := h
    show Style.eraseCodes ((style.codes ++ text ++ Style.reset).toList ++ ds) = text.toList ++ _
    rw [String.toList_append, String.toList_append, List.append_assoc, List.append_assoc,
      Style.eraseCodes_codes, Style.eraseCodes_append htext, Style.eraseCodes_reset]

theorem eraseCodes_renderAll {fs : List Fragment} (h : ∀ f ∈ fs, Lacks Style.escape f.text) :
    Style.eraseCodes (renderAll true fs).toList = (renderAll false fs).toList := by
  induction fs with
  | nil => exact Style.eraseCodes_nil
  | cons f fs ih =>
    obtain ⟨hf, hfs⟩ := List.forall_mem_cons.mp h
    rw [renderAll, renderAll, String.toList_append, String.toList_append, eraseCodes_render hf,
      ih hfs]

/-- fragments without an escape that are shown in colour, without the codes, are as they are without
colour -/
theorem erase_renderAll {fs : List Fragment} (h : Lacks Style.escape (renderAll false fs)) :
    Style.erase (renderAll true fs) = renderAll false fs := by
  unfold Style.erase
  rw [eraseCodes_renderAll (lacks_renderAll_iff.mp h), String.ofList_toList]

end Fragment

/-! ## reports -/

namespace Report

open Fragment Text
open Style (escape)

/-- **Colour only adds terminal codes.**  If the names of the traces and the labels and stages of
the findings have no escape, the report of any comparison in colour, without its codes, is the
report without colour, and that has no escape. -/
theorem erase_comparison {names : Names} (hnames : ∀ side, Lacks escape (names.of side))
    {c : Comparison} (hc : ∀ f ∈ c.findings, ∀ text ∈ f.texts, Lacks escape text) :
    Style.erase (renderAll true (comparison names c)) = renderAll false (comparison names c) ∧
    Lacks escape (renderAll false (comparison names c)) := by
  have hlacks : Lacks escape (renderAll false (comparison names c)) :=
    (takes_comparison (by decide) hnames hc).lacks (by decide)
  exact ⟨erase_renderAll hlacks, hlacks⟩

/-- a comparison whose findings and counts do not agree, with quoted texts that look like the rest
of codes -/
theorem erase_comparison_disagreeing :
    let names : Names := ⟨"a[0m", "31m"⟩
    let c : Comparison :=
      { checked := 0, divergent := 7, firstDivergence := some 1
        findings := [.labelMismatch 1 "[1m" "", .missing 2 .left,
          .stageTiming 1 "0m" [⟨"EX", some 1, none⟩, ⟨"[", some 2, some 2⟩], .stageTiming 1 "" []] }
    (∀ side, Lacks escape (names.of side)) ∧
    (∀ f ∈ c.findings, ∀ text ∈ f.texts, Lacks escape text) ∧
    renderAll true (comparison names c) ≠ renderAll false (comparison names c) ∧
    Style.erase (renderAll true (comparison names c)) = renderAll false (comparison names c) := by
  intro names c
  have hnames : ∀ side, Lacks escape (names.of side) := by
    intro side
    cases side <;> decide
  have hc : ∀ f ∈ c.findings, ∀ text ∈ f.texts, Lacks escape text := by decide +kernel
  exact ⟨hnames, hc, by decide +kernel, (erase_comparison hnames hc).1⟩

end Report

end PipeTrace
