/-!
# Control characters written out

A log is often read on a terminal, where some control characters would be obeyed instead of shown:
bell, backspace, form feed, escape, delete and the C1 controls.  `escape` writes these by their
code points and keeps all else, so that the text has nothing in it that a terminal obeys.
-/

set_option autoImplicit false

namespace PipeTrace.Text

/-- the ASCII controls that are written out: BEL, BS, FF, ESC and DEL -/
def escapedAscii : List Char := ['\x07', '\x08', '\x0c', '\x1b', '\x7f']

def isC1 (c : Char) : Bool := 0x80 ≤ c.toNat && c.toNat ≤ 0x9F

def isEscaped (c : Char) : Bool := c ∈ escapedAscii || isC1 c

/-- a number below 256 as two hexadecimal digits -/
def hexPair (n : Nat) : List Char := [Nat.digitChar (n / 16), Nat.digitChar (n % 16)]

/-- a character of a text that is written out where it has to be -/
def escapeChar (c : Char) : List Char :=
  if c ∈ escapedAscii then "\\x".toList ++ hexPair c.toNat
  else if isC1 c then "\\u\x7b".toList ++ hexPair c.toNat ++ "\x7d".toList
  else [c]

def escape (text : String) : String := String.ofList (text.toList.flatMap escapeChar)

/-! ## what is written -/

example : escape "a\x1b[1m\x07b" = "a\\x1b[1m\\x07b" := by decide +kernel
example : escape "\t\\\u0085é" = "\t\\\\u\x7b85\x7dé" := by decide +kernel

theorem escape_append (s t : String) : escape (s ++ t) = escape s ++ escape t := by
  simp [escape]

theorem escapeChar_of_not_isEscaped {c : Char} (h : isEscaped c = false) : escapeChar c = [c] := by
  simp only [isEscaped, Bool.or_eq_false_iff, decide_eq_false_iff_not] at h
  simp [escapeChar, h.1, h.2]

theorem isEscaped_digitChar (n : Nat) : isEscaped (Nat.digitChar n) = false := by
  by_cases h : n < 16
  · exact (by decide : ∀ n < 16, isEscaped (Nat.digitChar n) = false) n h
  · unfold Nat.digitChar
    repeat rw [if_neg (by omega)]
    decide

/-- what is written of a character has no control character that a terminal obeys -/
theorem isEscaped_of_mem_escapeChar {c d : Char} (h : d ∈ escapeChar c) : isEscaped d = false := by
  have hpair {n : Nat} (h : d ∈ hexPair n) : isEscaped d = false := by
    simp only [hexPair, List.mem_cons, List.not_mem_nil, or_false] at h
    rcases h with rfl | rfl <;> exact isEscaped_digitChar _
  have hmark {s : String} (hs : s.toList.all (isEscaped · = false) = true) (h : d ∈ s.toList) :
      isEscaped d = false := by
    simpa using List.all_eq_true.mp hs d h
  unfold escapeChar at h
  split at h
  · rcases List.mem_append.mp h with h | h
    · exact hmark (by decide) h
    · exact hpair h
  · split at h
    · rcases List.mem_append.mp h with h | h
      · rcases List.mem_append.mp h with h | h
        · exact hmark (by decide) h
        · exact hpair h
      · exact hmark (by decide) h
    · cases List.mem_singleton.mp h
      simp_all [isEscaped]

/-- a text that is written out has no control character that a terminal obeys -/
theorem isEscaped_of_mem_escape {s : String} {c : Char} (h : c ∈ (escape s).toList) :
    isEscaped c = false := by
  simp only [escape, String.toList_ofList, List.mem_flatMap] at h
  obtain ⟨_, _, h⟩ := h
  exact isEscaped_of_mem_escapeChar h

end PipeTrace.Text
