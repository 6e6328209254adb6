import Mathlib.Algebra.Group.Int.Defs
import Mathlib.Data.List.TakeWhile
import PipeTrace.Event

/-!
# The numbers that a field can hold

A number is read digit by digit, and its value is checked after each of them.  Here it is said what
that comes to for the text as a whole.

* `Decimal.Signed`    a text is a sign, or none, and what follows;
* `Decimal.Denotes`   a text is a sign, or none, and digits, and these denote an integer;
* `Decimal.Run`       any text: a sign or none, the longest run of digits after it, and a rest;
* `Decimal.Fault`     what is wrong with a text that does not denote a word.

Every integer is denoted by its own text (`Decimal.denotes_toString`).

A number does not come back into the range of words by more digits (`not_fits_apply_of_le`).  So it
makes no difference that the range is checked after each digit: a text is out of range if and only
if its run of digits is, whatever follows (`readDigits_append`).
-/

set_option autoImplicit false

namespace PipeTrace

namespace Word

theorem fits_iff {n : Int} : Fits n ↔ -2 ^ 63 ≤ n ∧ n ≤ 2 ^ 63 - 1 := by
  unfold Fits
  have hmin : Int64.minValue.toInt = -2 ^ 63 := by decide
  have hmax : Int64.maxValue.toInt = 2 ^ 63 - 1 := by decide
  rw [hmin, hmax]

end Word

namespace Decimal

/-! ## texts and the integers they denote -/

/-- the text is a sign, or none, in front of `body`; without a sign the number is positive -/
inductive Signed : List Char → Sign → List Char → Prop
  | bare {body : List Char} (hplus : body.head? ≠ some '+') (hminus : body.head? ≠ some '-') :
    Signed body .plus body
  | plus (body : List Char) : Signed ('+' :: body) .plus body
  | minus (body : List Char) : Signed ('-' :: body) .minus body

/-- the absolute value that digits denote -/
def value (digits : List Char) : Nat := Nat.ofDigitChars 10 digits 0

/-- the text is a sign, or none, and one or more digits, which denote the integer -/
def Denotes (cs : List Char) (n : Int) : Prop :=
  ∃ sign digits, Signed cs sign digits ∧ digits ≠ [] ∧ (∀ c ∈ digits, c.isDigit = true) ∧
    n = sign.apply (value digits)

/-- the text is a sign, or none, the longest run of digits after it, and the rest -/
structure Run (cs : List Char) (sign : Sign) (digits rest : List Char) : Prop where
  signed : Signed cs sign (digits ++ rest)
  isDigit : ∀ c ∈ digits, c.isDigit = true
  longest : ∀ c, rest.head? = some c → c.isDigit = false

/-- what is wrong with a text: there is none; the run of digits leaves the range of words; or it
stays in range, but there is no digit or something else after them -/
inductive Fault (cs : List Char) : ReadError → Prop
  | empty (hcs : cs = []) : Fault cs .empty
  | outOfRange {sign : Sign} {digits rest : List Char} (hcs : cs ≠ [])
    (hrun : Run cs sign digits rest) (hout : ¬ Word.Fits (sign.apply (value digits))) :
    Fault cs sign.outOfRange
  | invalidDigit {sign : Sign} {digits rest : List Char} (hcs : cs ≠ [])
    (hrun : Run cs sign digits rest) (hfits : Word.Fits (sign.apply (value digits)))
    (hrest : digits = [] ∨ rest ≠ []) : Fault cs .invalidDigit

section
variable {cs digits rest : List Char} {sign : Sign}

theorem signed_iff {body : List Char} : Signed cs sign body ↔ splitSign cs = (sign, body) := by
  constructor
  · intro h
    cases h with
    | bare hplus hminus =>
      unfold splitSign
      split
      · exact absurd rfl hplus
      · exact absurd rfl hminus
      · rfl
    | plus => rfl
    | minus => rfl
  · intro h
    unfold splitSign at h
    split at h
    · cases h
      exact .plus _
    · cases h
      exact .minus _
    · rename_i hplus hminus
      cases h
      refine .bare ?_ ?_
      · intro hhead
        obtain ⟨tail, rfl⟩ := List.head?_eq_some_iff.mp hhead
        exact hplus tail rfl
      · intro hhead
        obtain ⟨tail, rfl⟩ := List.head?_eq_some_iff.mp hhead
        exact hminus tail rfl

theorem exists_run (cs : List Char) : ∃ sign digits rest, Run cs sign digits rest := by
  have hsigned : Signed cs (splitSign cs).1 (splitSign cs).2 := signed_iff.mpr rfl
  refine ⟨(splitSign cs).1, (splitSign cs).2.takeWhile Char.isDigit,
    (splitSign cs).2.dropWhile Char.isDigit, ?_, fun c hc => List.mem_takeWhile_imp hc, ?_⟩
  · rwa [List.takeWhile_append_dropWhile]
  · intro c hc
    have hstop := List.head?_dropWhile_not Char.isDigit (splitSign cs).2
    rwa [hc] at hstop

theorem Signed.ne_nil {body : List Char} (h : Signed cs sign body) (hbody : body ≠ []) :
    cs ≠ [] := by
  cases h with
  | bare => exact hbody
  | plus => exact List.cons_ne_nil _ _
  | minus => exact List.cons_ne_nil _ _

/-- a text denotes an integer if nothing is before and after its digits but a sign -/
theorem denotes_iff_run {n : Int} : Denotes cs n ↔
    ∃ sign digits, Run cs sign digits [] ∧ digits ≠ [] ∧ n = sign.apply (value digits) := by
  constructor
  · rintro ⟨sign, digits, hsigned, hne, hdigits, hn⟩
    rw [← List.append_nil digits] at hsigned
    exact ⟨sign, digits, ⟨hsigned, hdigits, nofun⟩, hne, hn⟩
  · rintro ⟨sign, digits, hrun, hne, hn⟩
    have hsigned := hrun.signed
    rw [List.append_nil] at hsigned
    exact ⟨sign, digits, hsigned, hne, hrun.isDigit, hn⟩

/-! ## digits and the range of words -/

/-- a number that is out of range stays so with a greater absolute value -/
theorem not_fits_apply_of_le {m n : Nat} (h : m ≤ n) (hm : ¬ Word.Fits (sign.apply m)) :
    ¬ Word.Fits (sign.apply n) := by
  rw [Word.fits_iff] at hm ⊢
  cases sign with
  | plus =>
    have hm' : ¬ (-2 ^ 63 ≤ (m : Int) ∧ (m : Int) ≤ 2 ^ 63 - 1) := hm
    show ¬ (-2 ^ 63 ≤ (n : Int) ∧ (n : Int) ≤ 2 ^ 63 - 1)
    omega
  | minus =>
    have hm' : ¬ (-2 ^ 63 ≤ -(m : Int) ∧ -(m : Int) ≤ 2 ^ 63 - 1) := hm
    show ¬ (-2 ^ 63 ≤ -(n : Int) ∧ -(n : Int) ≤ 2 ^ 63 - 1)
    omega

theorem le_ofDigitChars (acc : Nat) (digits : List Char) :
    acc ≤ Nat.ofDigitChars 10 digits acc := by
  rw [Nat.ofDigitChars_eq_ofDigitChars_zero]
  have hpow : 0 < 10 ^ digits.length := Nat.pow_pos (by decide)
  exact (Nat.le_mul_of_pos_left acc hpow).trans (Nat.le_add_right _ _)

theorem fits_apply_zero (sign : Sign) : Word.Fits (sign.apply 0) := by
  cases sign <;> decide

theorem readDigits_of_not_isDigit (acc : Nat) (hrest : rest ≠ [])
    (hstop : ∀ c, rest.head? = some c → c.isDigit = false) :
    readDigits sign acc rest = .error .invalidDigit := by
  obtain ⟨c, tail, rfl⟩ := List.exists_cons_of_ne_nil hrest
  have hc : c.isDigit = false := hstop c rfl
  have hdigit : digit? c = none := if_neg (Bool.eq_false_iff.mp hc)
  rw [readDigits, hdigit]

/-- the range is checked after each digit, which comes to checking it after all of them -/
theorem readDigits_append {acc : Nat} (hacc : Word.Fits (sign.apply acc))
    (hdigits : ∀ c ∈ digits, c.isDigit = true)
    (hstop : ∀ c, rest.head? = some c → c.isDigit = false) :
    readDigits sign acc (digits ++ rest) =
      if Word.Fits (sign.apply (Nat.ofDigitChars 10 digits acc)) then
        if rest = [] then .ok (sign.apply (Nat.ofDigitChars 10 digits acc))
        else .error .invalidDigit
      else .error sign.outOfRange := by
  induction digits generalizing acc with
  | nil =>
    rw [List.nil_append, Nat.ofDigitChars_nil, if_pos hacc]
    split
    · rename_i hrest
      rw [hrest, readDigits_nil]
    · rename_i hrest
      exact readDigits_of_not_isDigit acc hrest hstop
  | cons c digits ih =>
    have hdigit : digit? c = some (c.toNat - '0'.toNat) := if_pos (hdigits c List.mem_cons_self)
    rw [List.cons_append, readDigits, hdigit, Nat.ofDigitChars_cons]
    by_cases hfits : Word.Fits (sign.apply (10 * acc + (c.toNat - '0'.toNat)))
    · simp only [if_pos hfits]
      exact ih hfits fun d hd => hdigits d (List.mem_cons_of_mem c hd)
    · -- the digits that follow do not bring the number back into the range
      have hout := not_fits_apply_of_le (le_ofDigitChars _ digits) hfits
      simp only [if_neg hfits, if_neg hout]

/-! ## words -/

theorem value_nil : value [] = 0 := rfl

/-- a text is read by its sign, its run of digits and what follows them -/
theorem Run.readWord_eq (h : Run cs sign digits rest) (hcs : cs ≠ []) :
    readWord cs =
      if Word.Fits (sign.apply (value digits)) then
        if digits = [] ∨ rest ≠ [] then .error .invalidDigit
        else .ok (Int64.ofInt (sign.apply (value digits)))
      else .error sign.outOfRange := by
  have hread : readDigits sign 0 (digits ++ rest) = _ :=
    readDigits_append (fits_apply_zero sign) h.isDigit h.longest
  unfold readWord
  rw [if_neg hcs, signed_iff.mp h.signed]
  show (if digits ++ rest = [] then .error .invalidDigit
    else (readDigits sign 0 (digits ++ rest)).map Int64.ofInt) = _
  by_cases hbody : digits ++ rest = []
  · -- a sign alone is followed by no digits, which denote 0
    obtain ⟨hdigits, -⟩ := List.append_eq_nil_iff.mp hbody
    rw [if_pos hbody, hdigits, value_nil, if_pos (fits_apply_zero sign), if_pos (Or.inl rfl)]
  · rw [if_neg hbody, hread]
    show Except.map Int64.ofInt (if Word.Fits (sign.apply (value digits)) then _ else _) = _
    split
    · by_cases hrest : rest = []
      · have hdigits : digits ≠ [] := fun hnil => hbody (by rw [hnil, hrest, List.append_nil])
        rw [if_pos hrest, if_neg (not_or.mpr ⟨hdigits, not_not.mpr hrest⟩)]
        rfl
      · rw [if_neg hrest, if_pos (Or.inr hrest)]
        rfl
    · rfl

theorem readWord_eq_ok_iff {w : Int64} : readWord cs = .ok w ↔ Denotes cs w.toInt := by
  rw [denotes_iff_run]
  constructor
  · intro h
    have hcs : cs ≠ [] := by
      rintro rfl
      cases h
    obtain ⟨sign, digits, rest, hrun⟩ := exists_run cs
    rw [hrun.readWord_eq hcs] at h
    split at h
    · rename_i hfits
      split at h
      · cases h
      · rename_i hplain
        rw [not_or, not_not] at hplain
        obtain ⟨hdigits, rfl⟩ := hplain
        cases h
        exact ⟨sign, digits, hrun, hdigits, Word.toInt_ofInt_of_fits hfits⟩
    · cases h
  · rintro ⟨sign, digits, hrun, hdigits, hw⟩
    have hcs : cs ≠ [] := hrun.signed.ne_nil (List.append_ne_nil_of_left_ne_nil hdigits [])
    have hfits : Word.Fits (sign.apply (value digits)) := hw ▸ Word.fits_toInt w
    rw [hrun.readWord_eq hcs, if_pos hfits, if_neg (not_or.mpr ⟨hdigits, not_not.mpr rfl⟩), ← hw,
      Int64.ofInt_toInt]

theorem readWord_eq_error_iff {reason : ReadError} :
    readWord cs = .error reason ↔ Fault cs reason := by
  constructor
  · intro h
    by_cases hcs : cs = []
    · subst hcs
      cases h
      exact .empty rfl
    · obtain ⟨sign, digits, rest, hrun⟩ := exists_run cs
      rw [hrun.readWord_eq hcs] at h
      split at h
      · rename_i hfits
        split at h
        · rename_i hrest
          cases h
          exact .invalidDigit hcs hrun hfits hrest
        · cases h
      · rename_i hout
        cases h
        exact .outOfRange hcs hrun hout
  · intro h
    cases h with
    | empty hcs =>
      rw [hcs]
      rfl
    | outOfRange hcs hrun hout => rw [hrun.readWord_eq hcs, if_neg hout]
    | invalidDigit hcs hrun hfits hrest =>
      rw [hrun.readWord_eq hcs, if_pos hfits, if_pos hrest]

end

/-! ## the texts of numbers -/

theorem isBlank_of_isDigit {c : Char} (h : c.isDigit = true) : Text.isBlank c = false := by
  have hrange : 48 ≤ c.toNat ∧ c.toNat ≤ 57 := Char.isDigit_iff_toNat.mp h
  simp only [Text.isBlank, Text.blankRanges, List.any_cons, List.any_nil, Bool.or_eq_false_iff,
    Bool.and_eq_false_iff, decide_eq_false_iff_not, and_true]
  omega

theorem Denotes.ne_nil {cs : List Char} {n : Int} (h : Denotes cs n) : cs ≠ [] := by
  obtain ⟨sign, digits, hsigned, hne, -⟩ := h
  exact hsigned.ne_nil hne

/-- the text of a number holds nothing but its sign and digits -/
theorem Denotes.sign_or_isDigit {cs : List Char} {n : Int} (h : Denotes cs n) {c : Char}
    (hc : c ∈ cs) : c = '+' ∨ c = '-' ∨ c.isDigit = true := by
  obtain ⟨sign, digits, hsigned, -, hdigits, -⟩ := h
  cases hsigned with
  | bare => exact Or.inr (Or.inr (hdigits c hc))
  | plus => exact (List.mem_cons.mp hc).imp_right fun hc => Or.inr (hdigits c hc)
  | minus => exact Or.inr ((List.mem_cons.mp hc).imp_right (hdigits c))

theorem Denotes.not_isBlank {cs : List Char} {n : Int} (h : Denotes cs n) {c : Char}
    (hc : c ∈ cs) : Text.isBlank c = false := by
  rcases h.sign_or_isDigit hc with rfl | rfl | hdigit
  · decide
  · decide
  · exact isBlank_of_isDigit hdigit

theorem isDigit_of_mem_toString {n : Nat} {c : Char} (h : c ∈ (toString n).toList) :
    c.isDigit = true := by
  rw [Nat.toString_eq_ofList_toDigits, String.toList_ofList] at h
  exact Nat.isDigit_of_mem_toDigits (by decide) (by decide) h

theorem value_toString (n : Nat) : value (toString n).toList = n := by
  rw [Nat.toString_eq_ofList_toDigits, String.toList_ofList]
  exact Nat.ofDigitChars_ten_toDigits

theorem toString_ne_nil (n : Nat) : (toString n).toList ≠ [] := by
  rw [Nat.toString_eq_ofList_toDigits, String.toList_ofList]
  exact Nat.toDigits_ne_nil

/-- the text of an integer denotes it -/
theorem denotes_toString (n : Int) : Denotes (toString n).toList n := by
  cases n with
  | ofNat m =>
    have hhead : ∀ c, (toString m).toList.head? = some c → c.isDigit = true := fun c hc =>
      isDigit_of_mem_toString (List.mem_of_mem_head? hc)
    refine ⟨.plus, (toString m).toList, .bare ?_ ?_, toString_ne_nil m,
      fun c => isDigit_of_mem_toString, ?_⟩
    · exact fun hc => absurd (hhead _ hc) (by decide)
    · exact fun hc => absurd (hhead _ hc) (by decide)
    · rw [value_toString]
      rfl
  | negSucc m =>
    refine ⟨.minus, (toString (m + 1)).toList, ?_, toString_ne_nil _,
      fun c => isDigit_of_mem_toString, ?_⟩
    · show Signed ("-" ++ toString (m + 1)).toList _ _
      rw [String.toList_append]
      exact .minus _
    · rw [value_toString]
      rfl

end Decimal

/-! ## integer fields -/

namespace IntField

variable {field : IntField} {cs : List Char}

/-- the field is not read as an integer, for the reason that the error names -/
def Rejects (field : IntField) (cs : List Char) (error : LineError) : Prop :=
  ∃ reason, error = .invalidInteger field (String.ofList (Text.trim cs)) reason ∧
    Decimal.Fault (Text.trim cs) reason

theorem read_eq_ok_iff {w : Int64} :
    field.read cs = .ok w ↔ Decimal.Denotes (Text.trim cs) w.toInt := by
  rw [← Decimal.readWord_eq_ok_iff]
  unfold read
  cases Decimal.readWord (Text.trim cs) with
  | ok n =>
    show Except.ok n = .ok w ↔ Except.ok n = .ok w
    rw [Except.ok.injEq, Except.ok.injEq]
  | error reason => exact iff_of_false nofun nofun

theorem read_eq_error_iff {error : LineError} :
    field.read cs = .error error ↔ field.Rejects cs error := by
  unfold Rejects
  simp only [← Decimal.readWord_eq_error_iff]
  unfold read
  cases Decimal.readWord (Text.trim cs) with
  | ok n => simp
  | error reason => simp [eq_comm]

/-- **Integer fields are read exactly.**  After blanks are trimmed a field is read as the integer
that its sign and its digits denote if that is a word, and is rejected otherwise, with the trimmed
text and what is wrong with it. -/
theorem read_exactly (field : IntField) (cs : List Char) :
    (∀ n : Int, (∃ w, field.read cs = .ok w ∧ w.toInt = n) ↔
      Decimal.Denotes (Text.trim cs) n ∧ -2 ^ 63 ≤ n ∧ n ≤ 2 ^ 63 - 1) ∧
    (∀ error, field.read cs = .error error ↔ ∃ reason,
      error = .invalidInteger field (String.ofList (Text.trim cs)) reason ∧
        Decimal.Fault (Text.trim cs) reason) := by
  refine ⟨fun n => ?_, fun error => read_eq_error_iff⟩
  rw [← Word.fits_iff]
  constructor
  · rintro ⟨w, hread, rfl⟩
    exact ⟨read_eq_ok_iff.mp hread, Word.fits_toInt w⟩
  · rintro ⟨hdenotes, hfits⟩
    have hn : (Int64.ofInt n).toInt = n := Word.toInt_ofInt_of_fits hfits
    refine ⟨Int64.ofInt n, read_eq_ok_iff.mpr ?_, hn⟩
    rwa [hn]

end IntField

end PipeTrace
