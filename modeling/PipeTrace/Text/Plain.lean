/-!
# Texts without control sequences

A terminal takes some characters of a text as commands.  `plain` is the text without them: without
single control characters, and without the sequences that ESC begins.

* `ESC [`, a control sequence, ends at a character from `@` to `~`;
* `ESC ]`, a command to the system, ends at BEL;
* `ESC P`, `ESC X`, `ESC ^` and `ESC _`, the strings, end at the byte 9C, which stands only inside
  the encoding of other characters; of `ESC P` a header goes before the string;
* any other escape sequence ends at a character from `0` to `~`.

Everywhere ESC begins a new sequence, and CAN and SUB end the current one.

Tabs and line breaks are kept.  A terminal obeys them inside an escape or control sequence too:
there what follows one of them is kept like ordinary text up to the next control character, and
then the sequence goes on.
-/

set_option autoImplicit false

namespace PipeTrace.Text

def codeIn (first last : Nat) (c : Char) : Bool := first ≤ c.toNat && c.toNat ≤ last

inductive Mode where
  | ordinary
  /-- after ESC -/
  | escape
  /-- an escape sequence after an intermediate character -/
  | escapeTail
  | control
  | command
  /-- the header of a device control string -/
  | header
  | headerParams
  | headerTail
  | string
deriving DecidableEq, Repr

namespace Mode

def next (mode : Mode) (c : Char) : Mode :=
  if c ∈ ['\x18', '\x1a'] then .ordinary
  else if c = '\x1b' then .escape
  else
    match mode with
    | .ordinary => .ordinary
    | .escape =>
      if c = '[' then .control
      else if c = ']' then .command
      else if c = 'P' then .header
      else if c ∈ ['X', '^', '_'] then .string
      else if codeIn 0x20 0x2F c then .escapeTail
      else if codeIn 0x30 0x7E c then .ordinary
      else .escape
    | .escapeTail => if codeIn 0x30 0x7E c then .ordinary else .escapeTail
    | .control => if codeIn 0x40 0x7E c then .ordinary else .control
    | .command => if c = '\x07' then .ordinary else .command
    | .header =>
      if codeIn 0x20 0x2F c then .headerTail
      else if codeIn 0x30 0x3F c then .headerParams
      else if codeIn 0x40 0x7E c then .string
      else .header
    | .headerParams =>
      if codeIn 0x20 0x2F c then .headerTail
      else if codeIn 0x3C 0x7E c then .string
      else .headerParams
    | .headerTail => if codeIn 0x30 0x7E c then .string else .headerTail
    | .string => if 0x9C ∈ String.utf8EncodeChar c then .ordinary else .string

def obeysLayout : Mode → Bool
  | .ordinary => true
  | .escape => true
  | .escapeTail => true
  | .control => true
  | _ => false

end Mode

def isLayout (c : Char) : Bool := c ∈ ['\t', '\n', '\x0c', '\r']

/-- the character is kept in ordinary text -/
def isPlain (c : Char) : Bool := isLayout c || (0x20 ≤ c.toNat && c ≠ '\x7f')

/-- where a terminal is in a text: what it reads, and whether the last character was kept -/
structure Terminal where
  mode : Mode := .ordinary
  showing : Bool := false
deriving DecidableEq, Repr

namespace Terminal

def keeps (t : Terminal) (c : Char) : Bool :=
  if t.showing || t.mode = .ordinary then isPlain c else isLayout c && t.mode.obeysLayout

/-- the place after a character; a character beyond ASCII that is kept ends every sequence -/
def next (t : Terminal) (c : Char) : Terminal :=
  if t.keeps c then { mode := if c.toNat < 0x80 then t.mode else .ordinary, showing := true }
  else { mode := t.mode.next c }

/-- what is kept of the rest of a text -/
def kept (t : Terminal) : List Char → List Char
  | [] => []
  | c :: cs => if t.keeps c then c :: (t.next c).kept cs else (t.next c).kept cs

end Terminal

def plain (text : String) : String := String.ofList (({} : Terminal).kept text.toList)

/-! ## what is kept -/

example : plain "\x1b[31mred\x1b[0m\x07" = "red" := by decide +kernel
example : plain "a\x1b]é\x07b\x1b[3\tc\x0b" = "ab\tc" := by decide +kernel

theorem Terminal.isPlain_of_keeps {t : Terminal} {c : Char} (h : t.keeps c = true) :
    isPlain c = true := by
  unfold keeps at h
  split at h
  · exact h
  · simp only [Bool.and_eq_true] at h
    simp [isPlain, h.1]

/-- what is kept stands in the text in the same order -/
theorem Terminal.kept_sublist (t : Terminal) (cs : List Char) : (t.kept cs).Sublist cs := by
  induction cs generalizing t with
  | nil => exact .slnil
  | cons c cs ih =>
    unfold kept
    split
    · exact (ih _).cons_cons c
    · exact (ih _).cons c

theorem Terminal.isPlain_of_mem_kept {t : Terminal} {cs : List Char} {c : Char}
    (h : c ∈ t.kept cs) : isPlain c = true := by
  induction cs generalizing t with
  | nil => cases h
  | cons d cs ih =>
    unfold kept at h
    split at h
    · next hd =>
      rcases List.mem_cons.mp h with rfl | h
      · exact isPlain_of_keeps hd
      · exact ih h
    · exact ih h

/-- ordinary text is kept as it is -/
theorem Terminal.kept_eq_self {t : Terminal} {cs : List Char} (ht : t.mode = .ordinary)
    (h : ∀ c ∈ cs, isPlain c = true) : t.kept cs = cs := by
  induction cs generalizing t with
  | nil => rfl
  | cons c cs ih =>
    have hc : t.keeps c = true := by simp [keeps, ht, h c]
    have hn : (t.next c).mode = .ordinary := by simp [next, hc, ht]
    rw [kept, if_pos hc, ih hn fun d hd => h d (List.mem_cons_of_mem c hd)]

end PipeTrace.Text
