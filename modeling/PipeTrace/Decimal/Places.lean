/-!
# Decimal places of binary numbers

Every finite 64-bit binary number is a whole number of units of `2 ^ -1074`, so its decimal text
with a fixed number of places is one exact division.  `roundQuotient` rounds a quotient to the
nearest whole number, a half to the even neighbour; `places` writes a number with the given number
of places.
-/

set_option autoImplicit false

namespace PipeTrace.Decimal

/-- the quotient rounded to the nearest whole number, a half to the even neighbour -/
def roundQuotient (num den : Nat) : Nat :=
  let q := num / den
  let twice := 2 * (num % den)
  if twice < den ∨ (twice = den ∧ q % 2 = 0) then q else q + 1

/-- what the bits of a 64-bit binary number stand for; the size of a finite number is counted in
units of `2 ^ -1074` -/
inductive Binary64 where
  | nan
  | infinite (negative : Bool)
  | finite (negative : Bool) (units : Nat)
deriving DecidableEq, Repr

def Binary64.one : Nat := 1 <<< 1074

def Binary64.ofBits (bits : UInt64) : Binary64 :=
  let n := bits.toNat
  let negative := n.testBit 63
  let exponent := (n >>> 52) % 0x800
  let fraction := n % 0x10000000000000
  if exponent = 0x7ff then
    if fraction = 0 then .infinite negative else .nan
  else if exponent = 0 then .finite negative fraction
  else .finite negative ((0x10000000000000 + fraction) <<< (exponent - 1))

/-- a count of `10 ^ -n` written with `n` places -/
def pointed (n scaled : Nat) : String :=
  toString (scaled / Nat.pow 10 n) ++ "." ++
    String.ofList ((toString (scaled % Nat.pow 10 n)).toList.leftpad n '0')

/-- the minus sign of a negative number; a negative zero keeps it -/
def signText (negative : Bool) : String := if negative then "-" else ""

/-- a binary number written with `n` decimal places -/
def Binary64.places (n : Nat) : Binary64 → String
  | .nan => "NaN"
  | .infinite negative => signText negative ++ "inf"
  | .finite negative units => signText negative ++ pointed n (roundQuotient (units * Nat.pow 10 n) one)

def places (n : Nat) (x : Float) : String := (Binary64.ofBits x.toBits).places n

/-! ## rounding -/

theorem roundQuotient_mul {q den : Nat} (h : 0 < den) : roundQuotient (q * den) den = q := by
  simp [roundQuotient, Nat.mul_div_cancel q h, h]

/-- the rounded quotient is within half a unit of the quotient -/
theorem roundQuotient_near (num : Nat) {den : Nat} (h : 0 < den) :
    2 * (roundQuotient num den * den) ≤ 2 * num + den ∧
      2 * num ≤ 2 * (roundQuotient num den * den) + den := by
  have hsum : den * (num / den) + num % den = num := Nat.div_add_mod num den
  have hlt : num % den < den := Nat.mod_lt num h
  rw [Nat.mul_comm den] at hsum
  unfold roundQuotient
  simp only
  split
  · omega
  · rw [Nat.add_mul, Nat.one_mul]
    omega

example : (Binary64.ofBits 0xbf80000000000000).places 6 = "-0.007812" := by decide +kernel
example : (Binary64.ofBits 0x8000000000000000).places 6 = "-0.000000" := by decide +kernel

end PipeTrace.Decimal
