import PipeTrace.Proofs.Grammar

/-!
# Blanks around lines and integer fields

A line is trimmed before it is cut at its tabs, and an integer field is trimmed before it is read.
So blanks around a line do not matter (`Event.parse_around`), and blanks around the integer fields of
an event do not (`Event.Padded`), as long as they are no tabs, which would cut the line.

The two trims meet in the last field: the blanks after it are taken off with those after the line
(`Event.Padded.trim_last`).  What is left is the line with blanks around its integer fields again,
so nothing else has to be known of such lines than that their fields are read alike.
-/

set_option autoImplicit false

namespace PipeTrace

/-- the integer fields of an event, which come right after its code -/
def EventCode.intFields : EventCode → List IntField
  | .enter => [.instructionId, .relativeCycle]
  | code => [code.firstField]

/-- blanks that do not cut a line into fields -/
def Text.Padding (cs : List Char) : Prop := AllBlank cs ∧ '\t' ∉ cs

instance (cs : List Char) : Decidable (Text.Padding cs) := inferInstanceAs (Decidable (_ ∧ _))

theorem Text.padding_nil : Padding [] := ⟨allBlank_nil, List.not_mem_nil⟩

theorem EventCode.tab_notMem_text (code : EventCode) : '\t' ∉ code.text.toList := by
  cases code <;> decide

theorem EventCode.text_ne_nil (code : EventCode) : code.text.toList ≠ [] := by
  cases code <;> decide

theorem EventCode.solid_of_head?_text {code : EventCode} {c : Char}
    (h : code.text.toList.head? = some c) : Text.isBlank c = false := by
  cases code <;> cases h <;> decide

namespace Event

open Text (AllBlank Padding)

/-! ## lines -/

theorem parse_around {w₁ w₂ : List Char} (h₁ : AllBlank w₁) (cs : List Char) (h₂ : AllBlank w₂) :
    parse (String.ofList (w₁ ++ cs ++ w₂)) = parse (String.ofList cs) := by
  apply parse_eq_of_trim_eq
  rw [String.toList_ofList, String.toList_ofList, Text.trim_around h₁ cs h₂]

/-! ## fields -/

/-- the second list has the fields of the first one, with blanks around the integer fields, which
come first; a line may end before all of them are there -/
inductive Padded : List IntField → List (List Char) → List (List Char) → Prop
  | others (args : List (List Char)) : Padded [] args args
  | ended (fields : List IntField) : Padded fields [] []
  | around {before after : List Char} {fields : List IntField} {args args' : List (List Char)}
    (field : IntField) (arg : List Char) (hbefore : Padding before) (hafter : Padding after)
    (h : Padded fields args args') :
    Padded (field :: fields) (arg :: args) ((before ++ arg ++ after) :: args')

theorem read_around (field : IntField) {before after : List Char} (hbefore : AllBlank before)
    (arg : List Char) (hafter : AllBlank after) :
    field.read (before ++ arg ++ after) = field.read arg := by
  unfold IntField.read
  rw [Text.trim_around hbefore arg hafter]

namespace Padded

variable {code : EventCode} {fields : List IntField} {args args' : List (List Char)}

theorem eq_of_nil (h : Padded [] args args') : args' = args := by
  cases h <;> rfl

theorem eq_nil (h : Padded fields [] args') : args' = [] := by
  cases h <;> rfl

theorem tab_notMem (h : Padded fields args args') (hargs : ∀ arg ∈ args, '\t' ∉ arg) :
    ∀ arg ∈ args', '\t' ∉ arg := by
  induction h with
  | others => exact hargs
  | ended => exact nofun
  | around field arg hbefore hafter _ ih =>
    obtain ⟨harg, hrest⟩ := List.forall_mem_cons.mp hargs
    refine List.forall_mem_cons.mpr ⟨?_, ih hrest⟩
    rw [List.mem_append, List.mem_append, not_or, not_or]
    exact ⟨⟨hbefore.2, harg⟩, hafter.2⟩

/-- what the fields of an event come to does not depend on blanks around its integer fields -/
theorem ofFields_eq (h : Padded code.intFields args args') :
    ofFields (code.text.toList :: args') = ofFields (code.text.toList :: args) := by
  cases args with
  | nil => rw [h.eq_nil]
  | cons arg rest =>
    cases code with
    | advance | setCycle | introduce | label =>
      cases h with
      | around field _ hbefore hafter hrest =>
        rw [ofFields_known, ofFields_known, hrest.eq_of_nil]
        simp only [decode, read_around _ hbefore.1 arg hafter.1]
    | enter =>
      cases h with
      | around field _ hbefore hafter hrest =>
        rw [ofFields_known, ofFields_known]
        cases rest with
        | nil => rw [hrest.eq_nil]; rfl
        | cons relative more =>
          cases hrest with
          | around field' _ hbefore' hafter' hmore =>
            rw [hmore.eq_of_nil]
            cases more with
            | nil => rfl
            | cons stage more =>
              simp only [decode, read_around _ hbefore.1 arg hafter.1,
                read_around _ hbefore'.1 relative hafter'.1]

/-- the last field with the blanks after it taken off is a field with blanks before it, if it did
not end in a blank -/
theorem trim_last (h : Padded fields args args') (hargs : args ≠ [])
    (hlast : ∀ last, args.getLast? = some last → last ≠ [] ∧ Text.trimEnd last = last) :
    ∃ init last, args' = init ++ [last] ∧ Text.trimEnd last ≠ [] ∧
      Padded fields args (init ++ [Text.trimEnd last]) := by
  induction h with
  | others args =>
    obtain ⟨hne, htrim⟩ := hlast _ (List.getLast?_eq_some_getLast hargs)
    have hargs' := List.dropLast_append_getLast hargs
    refine ⟨args.dropLast, args.getLast hargs, hargs'.symm, by rwa [htrim], ?_⟩
    rw [htrim, hargs']
    exact .others args
  | ended => exact absurd rfl hargs
  | @around before after fields args args' field arg hbefore hafter hrest ih =>
    by_cases hmore : args = []
    · subst hmore
      rw [hrest.eq_nil]
      obtain ⟨hne, htrim⟩ := hlast arg rfl
      have hbody : Text.trimEnd (before ++ arg ++ after) = before ++ arg ++ [] := by
        rw [Text.trimEnd_append_blanks _ hafter.1,
          Text.trimEnd_append_of_ne_nil before (by rwa [htrim]), htrim, List.append_nil]
      refine ⟨[], before ++ arg ++ after, rfl, ?_, ?_⟩
      · rw [hbody, List.append_nil]
        exact List.append_ne_nil_of_right_ne_nil before hne
      · rw [hbody]
        exact .around field arg hbefore Text.padding_nil (.ended fields)
    · obtain ⟨init, last, rfl, hne, hpadded⟩ := ih hmore fun last hmem =>
        hlast last (by rw [List.getLast?_cons, hmem]; rfl)
      exact ⟨(before ++ arg ++ after) :: init, last, rfl, hne,
        .around field arg hbefore hafter hpadded⟩

end Padded

/-- a line that begins with a code loses only the blanks after its last field when it is trimmed -/
theorem trim_intercalate (code : EventCode) (init : List (List Char)) {last : List Char}
    (hlast : Text.trimEnd last ≠ []) :
    Text.trim (['\t'].intercalate (code.text.toList :: init ++ [last])) =
      ['\t'].intercalate (code.text.toList :: init ++ [Text.trimEnd last]) := by
  have hstart : Text.trimStart (['\t'].intercalate (code.text.toList :: init ++ [last])) =
      ['\t'].intercalate (code.text.toList :: init ++ [last]) := by
    refine Text.trimStart_eq_self_iff.mpr fun c hc => ?_
    rw [List.cons_append, Text.head?_intercalate code.text_ne_nil] at hc
    exact EventCode.solid_of_head?_text hc
  rw [Text.trim, hstart, Text.trimEnd_intercalate (List.cons_ne_nil _ _) hlast]

theorem splitOn_intercalate (code : EventCode) {args : List (List Char)}
    (hargs : ∀ arg ∈ args, '\t' ∉ arg) :
    (['\t'].intercalate (code.text.toList :: args)).splitOn '\t' = code.text.toList :: args :=
  List.splitOn_intercalate '\t' (List.forall_mem_cons.mpr ⟨code.tab_notMem_text, hargs⟩)
    (List.cons_ne_nil _ _)

/-- a line with blanks around its integer fields decodes like the line without them -/
theorem parse_padded {line : String} {code : EventCode} {args args' : List (List Char)}
    (hfields : (Text.trim line.toList).splitOn '\t' = code.text.toList :: args)
    (h : Padded code.intFields args args') :
    parse (String.ofList (['\t'].intercalate (code.text.toList :: args'))) = parse line := by
  have hline : parse line = ofFields (code.text.toList :: args) := by
    unfold parse
    rw [hfields]
  have htabs : ∀ arg ∈ args, '\t' ∉ arg := fun arg harg =>
    Text.notMem_of_mem_splitOn (Text.trim line.toList) (hfields ▸ List.mem_cons_of_mem _ harg)
  by_cases hargs : args = []
  · subst hargs
    have hwhole : Text.trim line.toList = ['\t'].intercalate [code.text.toList] := by
      rw [← hfields, List.intercalate_splitOn]
    rw [h.eq_nil, ← hwhole]
    apply parse_eq_of_trim_eq
    rw [String.toList_ofList, Text.trim_trim]
  · have hlast : ∀ last, args.getLast? = some last → last ≠ [] ∧ Text.trimEnd last = last := by
      intro last hlast
      obtain ⟨init, rfl⟩ := List.getLast?_eq_some_iff.mp hlast
      exact Text.last_of_splitOn_trim Text.isBlank_tab (List.cons_ne_nil _ init) hfields
    obtain ⟨init, last, rfl, hne, hpadded⟩ := h.trim_last hargs hlast
    unfold parse
    rw [String.toList_ofList, ← List.cons_append, trim_intercalate code init hne, List.cons_append,
      splitOn_intercalate code (hpadded.tab_notMem htabs), hpadded.ofFields_eq, hfields]

/-- **Blanks around a line or an integer field never matter.**  A line decodes to the same event, or
is rejected with the same error, with any blanks before and after it, tabs and line breaks included,
and with any blanks but tabs before and after its integer fields. -/
theorem parse_of_blanks :
    (∀ w₁ line w₂ : String, AllBlank w₁.toList → AllBlank w₂.toList →
      parse (w₁ ++ line ++ w₂) = parse line) ∧
    ∀ (line : String) (code : EventCode) (args args' : List (List Char)),
      (Text.trim line.toList).splitOn '\t' = code.text.toList :: args →
      Padded code.intFields args args' →
      ∀ w₁ w₂ : List Char, AllBlank w₁ → AllBlank w₂ →
        parse (String.ofList (w₁ ++ ['\t'].intercalate (code.text.toList :: args') ++ w₂)) =
          parse line := by
  constructor
  · intro w₁ line w₂ h₁ h₂
    have haround := parse_around h₁ line.toList h₂
    rwa [String.ofList_append, String.ofList_append, String.ofList_toList, String.ofList_toList,
      String.ofList_toList] at haround
  · intro line code args args' hfields h w₁ w₂ h₁ h₂
    rw [parse_around h₁ _ h₂, parse_padded hfields h]

/-- blanks around the two integers of an entry, the second of which is no word; around the line of
an advance; and around its only field, where they meet those after the line -/
theorem parse_of_blanks_rejected :
    let rejected : LineError := .invalidInteger .relativeCycle "9223372036854775808" .tooLarge
    parse " S\t7\t9223372036854775808\tIF\r" = .error rejected ∧
    parse "\t\nS\t\u00a07\r\n\t 9223372036854775808  \tIF\t" = .error rejected ∧
    parse "C\t-5" = .ok (some (.advance (-5))) ∧
    parse "\u2028\tC\t-5\t\r\n" = .ok (some (.advance (-5))) ∧
    parse "C\t\u3000-5 \n\t " = .ok (some (.advance (-5))) := by
  intro rejected
  have hentry : parse " S\t7\t9223372036854775808\tIF\r" = .error rejected := by decide +kernel
  have hadvance : parse "C\t-5" = .ok (some (.advance (-5))) := by decide +kernel
  refine ⟨hentry, ?_, hadvance, ?_, ?_⟩
  · have hpadded : Padded EventCode.enter.intFields
        [['7'], "9223372036854775808".toList, ['I', 'F']]
        [['\u00a0'] ++ ['7'] ++ ['\r', '\n'],
          [' '] ++ "9223372036854775808".toList ++ [' ', ' '], ['I', 'F']] :=
      .around _ _ (by decide) (by decide) (.around _ _ (by decide) (by decide) (.others _))
    have hparse := parse_of_blanks.2 " S\t7\t9223372036854775808\tIF\r" .enter _ _
      (by decide +kernel) hpadded ['\t', '\n'] ['\t'] (by decide) (by decide)
    rw [hentry] at hparse
    rw [← hparse]
    exact congrArg parse (by decide +kernel)
  · rw [← hadvance]
    exact parse_of_blanks.1 "\u2028\t" "C\t-5" "\t\r\n" (by decide) (by decide)
  · have hpadded : Padded EventCode.advance.intFields [['-', '5']]
        [['\u3000'] ++ ['-', '5'] ++ [' ', '\n']] :=
      .around _ _ (by decide) (by decide) (.others _)
    have hparse := parse_of_blanks.2 "C\t-5" .advance _ _ (by decide +kernel) hpadded []
      ['\t', ' '] (by decide) (by decide)
    rw [hadvance] at hparse
    rw [← hparse]
    exact congrArg parse (by decide +kernel)

end Event

end PipeTrace
