/-!
# Signed 64-bit words

Arithmetic on words is done on the integers they stand for; a result is turned back into a word only
if it lies in the range of words.  `ofInt?` is that step and `plus?` the one sum that needs it.
-/

set_option autoImplicit false

namespace PipeTrace.Word

/-- the integer is the value of some word -/
def Fits (n : Int) : Prop := Int64.minValue.toInt ≤ n ∧ n ≤ Int64.maxValue.toInt

instance (n : Int) : Decidable (Fits n) := inferInstanceAs (Decidable (_ ∧ _))

def ofInt? (n : Int) : Option Int64 := if Fits n then some (Int64.ofInt n) else none

/-- the exact sum of two words, if it is a word -/
def plus? (a b : Int64) : Option Int64 := ofInt? (a.toInt + b.toInt)

theorem fits_toInt (w : Int64) : Fits w.toInt := ⟨w.minValue_le_toInt, w.toInt_le⟩

theorem toInt_ofInt_of_fits {n : Int} (h : Fits n) : (Int64.ofInt n).toInt = n :=
  Int64.toInt_ofInt_of_le h.1 (Int.lt_of_le_sub_one h.2)

theorem ofInt?_eq_none_iff {n : Int} : ofInt? n = none ↔ ¬ Fits n := by
  simp [ofInt?]

theorem plus?_eq_none_iff {a b : Int64} : plus? a b = none ↔ ¬ Fits (a.toInt + b.toInt) :=
  ofInt?_eq_none_iff

end PipeTrace.Word
