import PipeTrace.Text.Column

/-!
# Characters that a text lacks

`Lacks c s` says that the character does not stand in the text, and a text that lacks the newline is
of one line.  The texts of numbers lack all characters but digits and the minus, and filling a text
up to a column brings in none but the space; so neither of them brings in a control character.
-/

set_option autoImplicit false

namespace PipeTrace.Text

def Lacks (c : Char) (s : String) : Prop := c ∉ s.toList

instance (c : Char) (s : String) : Decidable (Lacks c s) := inferInstanceAs (Decidable (_ ∉ _))

variable {c : Char} {s t : String}

theorem lacks_append : Lacks c (s ++ t) ↔ Lacks c s ∧ Lacks c t := by
  unfold Lacks
  rw [String.toList_append, List.mem_append, not_or]

theorem lacks_ofList {cs : List Char} : Lacks c (String.ofList cs) ↔ c ∉ cs := by
  unfold Lacks
  rw [String.toList_ofList]

abbrev OneLine (s : String) : Prop := Lacks '\n' s

def newlines (s : String) : Nat := s.toList.count '\n'

theorem newlines_append (s t : String) : newlines (s ++ t) = newlines s + newlines t := by
  unfold newlines
  rw [String.toList_append, List.count_append]

/-! ## control characters -/

/-- the newline and the escape are control characters -/
def IsControl (c : Char) : Prop := c.toNat < 32

instance (c : Char) : Decidable (IsControl c) := inferInstanceAs (Decidable (_ < _))

theorem IsControl.ne (hc : IsControl c) {d : Char} (hd : 32 ≤ d.toNat) : c ≠ d := by
  rintro rfl
  exact absurd hc (Nat.not_lt.mpr hd)

theorem IsControl.isDigit (hc : IsControl c) : c.isDigit = false := by
  refine Bool.eq_false_iff.mpr fun hdigit => ?_
  have hle : 48 ≤ c.toNat := by
    simp only [Char.isDigit, Bool.and_eq_true, decide_eq_true_eq] at hdigit
    exact hdigit.1
  exact absurd (Nat.lt_of_le_of_lt hle hc) (by decide)

/-- words that are printed have no control characters -/
theorem IsControl.lacks (hc : IsControl c) (h : (s.toList.all fun d => 32 ≤ d.toNat) = true) :
    Lacks c s := fun hmem =>
  hc.ne (of_decide_eq_true (List.all_eq_true.mp h c hmem)) rfl

/-! ## numbers -/

namespace IsControl

variable (hc : IsControl c)
include hc

theorem lacks_nat (n : Nat) : Lacks c (toString n) := by
  rw [Nat.toString_eq_ofList_toDigits, lacks_ofList]
  intro hmem
  have hdigit := hc.isDigit
  rw [Nat.isDigit_of_mem_toDigits (by decide) (by decide) hmem] at hdigit
  cases hdigit

theorem lacks_int (n : Int) : Lacks c (toString n) := by
  cases n with
  | ofNat m => exact hc.lacks_nat m
  | negSucc m => exact lacks_append.mpr ⟨hc.lacks (by decide), hc.lacks_nat (m + 1)⟩

theorem lacks_word (w : Int64) : Lacks c (toString w) := hc.lacks_int w.toInt

/-! ## columns -/

theorem lacks_spaces (n : Nat) : c ∉ List.replicate n ' ' := fun hmem =>
  hc.ne (by decide) (List.eq_of_mem_replicate hmem)

theorem lacks_alignLeft (width : Nat) (h : Lacks c s) : Lacks c (alignLeft width s) := by
  unfold alignLeft List.rightpad
  rw [lacks_ofList, List.mem_append, not_or]
  exact ⟨h, hc.lacks_spaces _⟩

theorem lacks_alignRight (width : Nat) (h : Lacks c s) : Lacks c (alignRight width s) := by
  unfold alignRight List.leftpad
  rw [lacks_ofList, List.mem_append, not_or]
  exact ⟨hc.lacks_spaces _, h⟩

end IsControl

end PipeTrace.Text
