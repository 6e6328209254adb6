/-!
# Text as bytes

The bytes of a text are its UTF-8 encoding.

* `bytesOf`       the bytes of a text;
* `ofBytes?`      the text with the given bytes, if they are well-formed UTF-8;
* `ofCutBytes`    what can be shown of a text that was cut after some byte.
-/

set_option autoImplicit false

namespace PipeTrace.Text

def bytesOf (s : String) : List UInt8 := s.toByteArray.data.toList

/-- the text with the given encoding; `none` if the bytes are not well-formed UTF-8 -/
def ofBytes? (bytes : List UInt8) : Option String := String.fromUTF8? bytes.toByteArray

/-- the text whose encoding was cut to the given bytes; a character that lost some of its bytes and
kept three at most shows as U+FFFD -/
def ofCutBytes (bytes : List UInt8) : String :=
  match ofBytes? bytes with
  | some s => s
  | none =>
    match [1, 2, 3].findSome? fun n => ofBytes? (bytes.take (bytes.length - n)) with
    | some s => s ++ "\uFFFD"
    | none => ""

@[simp] theorem bytesOf_empty : bytesOf "" = [] := rfl

@[simp] theorem bytesOf_append (s t : String) : bytesOf (s ++ t) = bytesOf s ++ bytesOf t := by
  simp [bytesOf, ByteArray.data_append]

theorem ofBytes?_eq_some_iff {bytes : List UInt8} {s : String} :
    ofBytes? bytes = some s ↔ bytes = bytesOf s := by
  unfold ofBytes? String.fromUTF8?
  constructor
  · intro h
    split at h
    · cases h
      simp [bytesOf, String.fromUTF8]
    · cases h
  · rintro rfl
    have hb : (bytesOf s).toByteArray = s.toByteArray := by
      apply ByteArray.ext
      simp [bytesOf]
    rw [dif_pos (hb ▸ s.isValidUTF8)]
    congr 1
    apply String.toByteArray_inj.mp
    simpa [String.fromUTF8] using hb

@[simp] theorem ofBytes?_bytesOf (s : String) : ofBytes? (bytesOf s) = some s :=
  ofBytes?_eq_some_iff.mpr rfl

end PipeTrace.Text
