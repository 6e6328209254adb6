import Mathlib.Data.String.Basic
import Mathlib.Tactic.SplitIfs
import PipeTrace.Text.Bytes

/-!
# The order of texts is the order of their bytes

Texts are compared character by character.  UTF-8 keeps that order: the encoding of a smaller
character is smaller at the first byte at which the two encodings differ, and none of them is the
beginning of another.  So two texts compare as their bytes do (`bytesOf_lt_bytesOf_iff`).
-/

set_option autoImplicit false

namespace PipeTrace.Text

theorem bytesOf_ofList (cs : List Char) :
    bytesOf (String.ofList cs) = cs.flatMap String.utf8EncodeChar := by
  simp [bytesOf, List.utf8Encode]

theorem toNat_val_lt (c : Char) : c.val.toNat < 0x110000 := by
  rcases c.valid with h | h
  · have h' : c.val.toNat < 0xd800 := h
    omega
  · exact h.2

/-- a smaller number has the smaller digit of six bits at the first place where they differ -/
theorem digits_lt {v w : Nat} (h : v < w) :
    v / 262144 < w / 262144 ∨ v / 262144 = w / 262144 ∧
      (v / 4096 % 64 < w / 4096 % 64 ∨ v / 4096 % 64 = w / 4096 % 64 ∧
        (v / 64 % 64 < w / 64 % 64 ∨ v / 64 % 64 = w / 64 % 64 ∧ v % 64 < w % 64)) := by
  have h1 : v / 64 < w / 64 ∨ v / 64 = w / 64 ∧ v % 64 < w % 64 := by omega
  rcases h1 with h1 | ⟨e1, h1⟩
  · have h2 : v / 4096 < w / 4096 ∨ v / 4096 = w / 4096 ∧ v / 64 % 64 < w / 64 % 64 := by omega
    rcases h2 with h2 | ⟨e2, h2⟩
    · omega
    · omega
  · omega

theorem encodeChar_append_lt {c d : Char} (h : c < d) (as bs : List UInt8) :
    String.utf8EncodeChar c ++ as < String.utf8EncodeChar d ++ bs := by
  have hv : c.val.toNat < d.val.toNat := h
  have hd := toNat_val_lt d
  have hdig := digits_lt hv
  simp only [String.utf8EncodeChar]
  -- the lengths of both encodings, a longer one for `c` being impossible
  split_ifs <;>
    simp only [List.cons_append, List.nil_append, List.cons_lt_cons_iff, UInt8.lt_iff_toNat_lt,
      ← UInt8.toNat_inj, UInt8.toNat_ofNat']
  all_goals simp (disch := omega) only [Nat.mod_eq_of_lt]
  all_goals omega

theorem flatMap_encodeChar_lt {cs ds : List Char} (h : cs < ds) :
    cs.flatMap String.utf8EncodeChar < ds.flatMap String.utf8EncodeChar := by
  induction h with
  | @nil d ds =>
    rw [List.flatMap_nil, List.flatMap_cons]
    cases he : String.utf8EncodeChar d with
    | nil => exact absurd he String.utf8EncodeChar_ne_nil
    | cons b bs => exact List.Lex.nil
  | rel hlt =>
    rw [List.flatMap_cons, List.flatMap_cons]
    exact encodeChar_append_lt hlt _ _
  | cons _ ih =>
    rw [List.flatMap_cons, List.flatMap_cons]
    exact List.append_left_lt ih

theorem bytesOf_lt_bytesOf {s t : String} (h : s < t) : bytesOf s < bytesOf t := by
  rw [← String.ofList_toList (s := s), ← String.ofList_toList (s := t), bytesOf_ofList,
    bytesOf_ofList]
  exact flatMap_encodeChar_lt h

/-- **Two texts compare as their bytes do.** -/
theorem bytesOf_lt_bytesOf_iff {s t : String} : bytesOf s < bytesOf t ↔ s < t := by
  constructor
  · intro h
    rcases lt_trichotomy s t with hlt | heq | hgt
    · exact hlt
    · rw [heq] at h
      exact absurd h (List.lt_irrefl _)
    · exact absurd (bytesOf_lt_bytesOf hgt) (List.lt_asymm h)
  · exact bytesOf_lt_bytesOf

end PipeTrace.Text
