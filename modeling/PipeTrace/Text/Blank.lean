/-!
# Blank characters and trimming

`isBlank` holds of the 25 characters with the Unicode property White_Space.  `trimStart`, `trimEnd`
and `trim` take the blank characters off one end or both ends of a text.

Texts are worked on as lists of characters, so that every cut is a structural recursion.
-/

set_option autoImplicit false

namespace PipeTrace.Text

/-- the characters with the property White_Space, as closed intervals of code points -/
def blankRanges : List (Nat × Nat) :=
  [(0x0009, 0x000D), (0x0020, 0x0020), (0x0085, 0x0085), (0x00A0, 0x00A0), (0x1680, 0x1680),
   (0x2000, 0x200A), (0x2028, 0x2029), (0x202F, 0x202F), (0x205F, 0x205F), (0x3000, 0x3000)]

def isBlank (c : Char) : Bool :=
  blankRanges.any fun (first, last) => first ≤ c.toNat && c.toNat ≤ last

def trimStart (cs : List Char) : List Char := cs.dropWhile isBlank

def trimEnd (cs : List Char) : List Char := (cs.reverse.dropWhile isBlank).reverse

def trim (cs : List Char) : List Char := trimEnd (trimStart cs)

/-! ## the class -/

example : (blankRanges.map fun (first, last) => last + 1 - first).sum = 25 := by decide

theorem isBlank_tab : isBlank '\t' = true := by decide

/-! ## trimming -/

@[simp] theorem trimEnd_nil : trimEnd [] = [] := rfl
@[simp] theorem trim_nil : trim [] = [] := rfl

end PipeTrace.Text
