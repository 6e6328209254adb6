import Mathlib.Data.Nat.Find
import Mathlib.Order.Bounds.Basic
import PipeTrace.Proofs.Text.ByteOrder

/-!
# Well-formed bytes

Bytes are `WellFormed` if they are the encoding of some text, and well-formed up to the offset
`validUpTo` if they are not.

A byte below 80 stands for a character of its own and is no part of the encoding of another one.  So
bytes may be cut before and after it: both parts are well-formed exactly if the whole is
(`wellFormed_append_cons_iff`), and what stands before such a cut says where the whole stops being
well-formed (`validUpTo_append_cons`, `validUpTo_append_cons_le`).
-/

set_option autoImplicit false

namespace PipeTrace.Text

/-- the bytes are the encoding of some text -/
def WellFormed (bytes : List UInt8) : Prop := ∃ s, bytes = bytesOf s

section
variable {as bs bytes : List UInt8} {b : UInt8} {c : Char}

theorem bytesOf_inj {s t : String} : bytesOf s = bytesOf t ↔ s = t := by
  constructor
  · intro h
    have hs := ofBytes?_bytesOf s
    rw [h, ofBytes?_bytesOf] at hs
    exact (Option.some_inj.mp hs).symm
  · rintro rfl
    rfl

theorem isSome_ofBytes?_iff : (ofBytes? bytes).isSome ↔ WellFormed bytes := by
  rw [Option.isSome_iff_exists]
  exact exists_congr fun s => ofBytes?_eq_some_iff

theorem ofBytes?_eq_none_iff : ofBytes? bytes = none ↔ ¬ WellFormed bytes := by
  rw [← isSome_ofBytes?_iff, Option.not_isSome_iff_eq_none]

instance (bytes : List UInt8) : Decidable (WellFormed bytes) :=
  decidable_of_iff _ isSome_ofBytes?_iff

theorem wellFormed_iff_chars :
    WellFormed bytes ↔ ∃ cs : List Char, bytes = cs.flatMap String.utf8EncodeChar := by
  constructor
  · rintro ⟨s, rfl⟩
    exact ⟨s.toList, by rw [← bytesOf_ofList, String.ofList_toList]⟩
  · rintro ⟨cs, rfl⟩
    exact ⟨String.ofList cs, (bytesOf_ofList cs).symm⟩

theorem wellFormed_nil : WellFormed [] := ⟨"", rfl⟩

theorem WellFormed.append (ha : WellFormed as) (hb : WellFormed bs) : WellFormed (as ++ bs) := by
  obtain ⟨s, rfl⟩ := ha
  obtain ⟨t, rfl⟩ := hb
  exact ⟨s ++ t, (bytesOf_append s t).symm⟩

/-! ## bytes below 80 -/

theorem encodeChar_eq_singleton_of_mem (hb : b.toNat < 0x80)
    (h : b ∈ String.utf8EncodeChar c) : String.utf8EncodeChar c = [b] := by
  have hv := toNat_val_lt c
  have high : ∀ n, 0x80 ≤ n → n < 0x100 → b ≠ UInt8.ofNat n := by
    rintro n h1 h2 rfl
    rw [UInt8.toNat_ofNat', Nat.mod_eq_of_lt h2] at hb
    omega
  simp only [String.utf8EncodeChar] at h ⊢
  -- all bytes of a longer encoding are 80 or more
  split_ifs at h ⊢ with h1 h2 h3
  · rw [List.mem_singleton.mp h]
  all_goals
    simp only [List.mem_cons, List.not_mem_nil, or_false] at h
    exfalso
  · rcases h with h | h <;> exact high _ (by omega) (by omega) h
  · rcases h with h | h | h <;> exact high _ (by omega) (by omega) h
  · rcases h with h | h | h | h <;> exact high _ (by omega) (by omega) h

theorem wellFormed_singleton (hb : b.toNat < 0x80) : WellFormed [b] := by
  have hvalid : b.toNat.isValidChar := Or.inl (by omega)
  have hval : (Char.ofNat b.toNat).val.toNat = b.toNat := by
    rw [Char.ofNat, dif_pos hvalid]
    rfl
  refine wellFormed_iff_chars.mpr ⟨[Char.ofNat b.toNat], ?_⟩
  rw [List.flatMap_singleton]
  simp only [String.utf8EncodeChar, hval]
  rw [if_pos (by omega), UInt8.ofNat_toNat]

/-- the characters before a byte below 80, and those after it -/
theorem chars_append_cons (hb : b.toNat < 0x80) {cs : List Char}
    (h : as ++ b :: bs = cs.flatMap String.utf8EncodeChar) : WellFormed as ∧ WellFormed bs := by
  -- the first character stands before the byte, or it is the byte
  induction cs generalizing as with
  | nil => simp at h
  | cons c cs ih =>
    rw [List.flatMap_cons] at h
    rcases List.append_eq_append_iff.mp h with ⟨p, hp, hrest⟩ | ⟨p, hp, hrest⟩
    · cases p with
      | nil =>
        have hrest : [] ++ b :: bs = cs.flatMap String.utf8EncodeChar := hrest
        obtain ⟨-, hbs⟩ := ih hrest
        rw [List.append_nil] at hp
        refine ⟨wellFormed_iff_chars.mpr ⟨[c], ?_⟩, hbs⟩
        rw [List.flatMap_singleton, hp]
      | cons d p =>
        obtain ⟨rfl, hbs⟩ := List.cons_eq_cons.mp hrest
        have hmem : b ∈ String.utf8EncodeChar c := by
          rw [hp]
          exact List.mem_append_right as List.mem_cons_self
        rw [encodeChar_eq_singleton_of_mem hb hmem] at hp
        obtain ⟨rfl, hnil⟩ := List.singleton_eq_append_iff.mp hp |>.resolve_right fun hn =>
          List.cons_ne_nil _ _ hn.2
        obtain ⟨-, rfl⟩ := List.cons_eq_cons.mp hnil
        exact ⟨wellFormed_nil, wellFormed_iff_chars.mpr ⟨cs, hbs⟩⟩
    · obtain ⟨hp', hbs⟩ := ih hrest.symm
      rw [hp]
      refine ⟨WellFormed.append (wellFormed_iff_chars.mpr ⟨[c], ?_⟩) hp', hbs⟩
      rw [List.flatMap_singleton]

/-- **Bytes may be cut at a byte below 80.** -/
theorem wellFormed_append_cons_iff (hb : b.toNat < 0x80) :
    WellFormed (as ++ b :: bs) ↔ WellFormed as ∧ WellFormed bs := by
  constructor
  · intro h
    obtain ⟨cs, hcs⟩ := wellFormed_iff_chars.mp h
    exact chars_append_cons hb hcs
  · rintro ⟨ha, hbs⟩
    have h := ha.append ((wellFormed_singleton hb).append hbs)
    rwa [List.singleton_append] at h

/-! ## where bytes stop being well-formed -/

/-- the greatest offset up to which the bytes are well-formed -/
def validUpTo (bytes : List UInt8) : Nat :=
  Nat.findGreatest (fun n => WellFormed (bytes.take n)) bytes.length

theorem isGreatest_validUpTo (bytes : List UInt8) :
    IsGreatest {n | n ≤ bytes.length ∧ WellFormed (bytes.take n)} (validUpTo bytes) := by
  refine ⟨⟨Nat.findGreatest_le _, ?_⟩, ?_⟩
  · exact Nat.findGreatest_spec (P := fun n => WellFormed (bytes.take n)) (Nat.zero_le _)
      wellFormed_nil
  · rintro n ⟨hn, hwell⟩
    exact Nat.le_findGreatest hn hwell

theorem take_append_cons (as bs : List UInt8) (b : UInt8) (n : Nat) :
    (as ++ b :: bs).take (as.length + 1 + n) = as ++ b :: bs.take n := by
  rw [Nat.add_assoc, List.take_length_add_append, Nat.add_comm 1 n, List.take_succ_cons]

theorem validUpTo_append_cons (hb : b.toNat < 0x80) (ha : WellFormed as) :
    validUpTo (as ++ b :: bs) = as.length + 1 + validUpTo bs := by
  have hlen : (as ++ b :: bs).length = as.length + 1 + bs.length := by
    rw [List.length_append, List.length_cons]
    omega
  obtain ⟨⟨hle, hwell⟩, hgreatest⟩ := isGreatest_validUpTo bs
  apply (isGreatest_validUpTo _).unique
  refine ⟨⟨by omega, ?_⟩, ?_⟩
  · rw [take_append_cons]
    exact (wellFormed_append_cons_iff hb).mpr ⟨ha, hwell⟩
  · rintro n ⟨hn, hn'⟩
    by_cases hlt : n < as.length + 1
    · omega
    · obtain ⟨m, rfl⟩ := Nat.exists_eq_add_of_le (Nat.le_of_not_lt hlt)
      rw [take_append_cons] at hn'
      have hm := hgreatest ⟨by omega, ((wellFormed_append_cons_iff hb).mp hn').2⟩
      omega

theorem validUpTo_append_cons_le (hb : b.toNat < 0x80) (ha : ¬ WellFormed as) (bs : List UInt8) :
    validUpTo (as ++ b :: bs) ≤ as.length := by
  obtain ⟨⟨-, hwell⟩, -⟩ := isGreatest_validUpTo (as ++ b :: bs)
  by_contra hlt
  obtain ⟨n, hn⟩ := Nat.exists_eq_add_of_lt (Nat.lt_of_not_le hlt)
  rw [hn, show as.length + n + 1 = as.length + 1 + n by omega, take_append_cons] at hwell
  exact ha ((wellFormed_append_cons_iff hb).mp hwell).1

end

end PipeTrace.Text
