import PipeTrace.Text.Bytes

/-!
# Sinks

A `Sink` holds the bytes that were written to it.  It may have room for a limited number of bytes:
of a text that does not fit it keeps the beginning, and from then on it is full.
-/

set_option autoImplicit false

namespace PipeTrace

/-- the bytes written so far, and for how many more there is room -/
structure Sink where
  held : List UInt8 := []
  /-- absent if there is no limit -/
  room : Option Nat := none
deriving DecidableEq, Repr

namespace Sink

def fits (s : Sink) (bytes : List UInt8) : Bool :=
  match s.room with
  | none => true
  | some n => bytes.length ≤ n

/-- the sink after bytes were written; those for which there is no room are lost -/
def put (s : Sink) (bytes : List UInt8) : Sink :=
  match s.room with
  | none => { s with held := s.held ++ bytes }
  | some n => { held := s.held ++ bytes.take n, room := some (n - bytes.length) }

def text (s : Sink) : String := Text.ofCutBytes s.held

@[simp] theorem put_nil (s : Sink) : s.put [] = s := by
  obtain ⟨held, _ | n⟩ := s <;> simp [put]

@[simp] theorem put_append (s : Sink) (xs ys : List UInt8) :
    s.put (xs ++ ys) = (s.put xs).put ys := by
  obtain ⟨held, _ | n⟩ := s
  · simp [put]
  · simp [put, List.take_append, Nat.sub_sub]

theorem fits_append (s : Sink) (xs ys : List UInt8) :
    s.fits (xs ++ ys) = (s.fits xs && (s.put xs).fits ys) := by
  obtain ⟨held, _ | n⟩ := s
  · rfl
  · simp only [fits, put, List.length_append]
    by_cases h : xs.length ≤ n
    · simp only [h, decide_true, Bool.true_and, decide_eq_decide]
      omega
    · simp only [h, decide_false, Bool.false_and, decide_eq_false_iff_not]
      omega

end Sink

end PipeTrace
