import PipeTrace.Word

/-!
# Signed decimal numbers

`readWord` reads the text of a 64-bit word: one sign or none, then one or more ASCII digits, with
any number of zeros in front.  The digits are consumed from the left, and the first fault decides
the error: a character that is no digit, or a value that leaves the range of words on the side of
the sign.
-/

set_option autoImplicit false

namespace PipeTrace.Decimal

/-- why a text is not the decimal text of a word -/
inductive ReadError where
  | empty
  | invalidDigit
  | tooLarge
  | tooSmall
deriving DecidableEq, Repr

def ReadError.message : ReadError → String
  | .empty => "cannot parse integer from empty string"
  | .invalidDigit => "invalid digit found in string"
  | .tooLarge => "number too large to fit in target type"
  | .tooSmall => "number too small to fit in target type"

/-- the sign in front of a number; no sign counts as `plus` -/
inductive Sign where
  | plus
  | minus
deriving DecidableEq, Repr

def Sign.apply : Sign → Nat → Int
  | .plus, n => n
  | .minus, n => -n

/-- the error for a number of this sign that is out of range -/
def Sign.outOfRange : Sign → ReadError
  | .plus => .tooLarge
  | .minus => .tooSmall

/-- the sign a text begins with, and what follows it -/
def splitSign : List Char → Sign × List Char
  | '+' :: cs => (.plus, cs)
  | '-' :: cs => (.minus, cs)
  | cs => (.plus, cs)

def digit? (c : Char) : Option Nat :=
  if c.isDigit then some (c.toNat - '0'.toNat) else none

/-- reads digits onto the absolute value `acc` of a number with the given sign -/
def readDigits (sign : Sign) : Nat → List Char → Except ReadError Int
  | acc, [] => .ok (sign.apply acc)
  | acc, c :: cs =>
    match digit? c with
    | none => .error .invalidDigit
    | some d =>
      if Word.Fits (sign.apply (10 * acc + d)) then readDigits sign (10 * acc + d) cs
      else .error sign.outOfRange

def readWord (cs : List Char) : Except ReadError Int64 :=
  if cs = [] then .error .empty
  else
    let (sign, digits) := splitSign cs
    if digits = [] then .error .invalidDigit
    else (readDigits sign 0 digits).map Int64.ofInt

/-! ## faults in the order in which they are met -/

example : readWord "9223372036854775807x".toList = .error .invalidDigit := by cbv
example : readWord "9223372036854775808x".toList = .error .tooLarge := by cbv
example : readWord "-".toList = .error .invalidDigit := by cbv
example : readWord "-0009223372036854775808".toList = .ok Int64.minValue := by cbv

theorem readDigits_nil (sign : Sign) (acc : Nat) :
    readDigits sign acc [] = .ok (sign.apply acc) := rfl

end PipeTrace.Decimal
