import PipeTrace.Proofs.Lines

/-!
# Line endings

A line of a log may be ended by a newline or by a carriage return and a newline (`LineEnd`), and a
last line that is not empty need not be ended at all.

* `written`            lines as they are written, each with its own ending, and what follows them;
* `IsLine`             a text that can be a line, however it is ended;
* `Trace.load_written` a log is read as its lines, whatever their endings.

An ending is made of bytes below 80, so it is found in the bytes exactly where it is in the text
(`Text.mem_bytesOf_iff`, `Text.getLast?_bytesOf_iff`).
-/

set_option autoImplicit false

namespace PipeTrace

/-! ## characters below 80 -/

namespace Text

section
variable {b : UInt8} {c d : Char}

theorem bytesOf_singleton (c : Char) : bytesOf (String.ofList [c]) = String.utf8EncodeChar c := by
  rw [bytesOf_ofList, List.flatMap_singleton]

/-- a character that is encoded by one byte below 80 is known by it -/
theorem mem_encodeChar_iff (hb : b.toNat < 0x80) (hd : String.utf8EncodeChar d = [b]) :
    b ∈ String.utf8EncodeChar c ↔ c = d := by
  constructor
  · intro h
    have henc : bytesOf (String.ofList [c]) = bytesOf (String.ofList [d]) := by
      rw [bytesOf_singleton, bytesOf_singleton, encodeChar_eq_singleton_of_mem hb h, hd]
    have hlist := String.ofList_inj.mp (bytesOf_inj.mp henc)
    exact List.singleton_inj.mp hlist
  · rintro rfl
    rw [hd]
    exact List.mem_singleton_self b

theorem mem_bytesOf_iff (hb : b.toNat < 0x80) (hd : String.utf8EncodeChar d = [b]) {s : String} :
    b ∈ bytesOf s ↔ d ∈ s.toList := by
  rw [← String.ofList_toList (s := s), bytesOf_ofList, String.toList_ofList, List.mem_flatMap]
  constructor
  · rintro ⟨c, hc, hmem⟩
    rwa [← (mem_encodeChar_iff hb hd).mp hmem]
  · intro hd'
    exact ⟨d, hd', (mem_encodeChar_iff hb hd).mpr rfl⟩

theorem getLast?_encodeChar_iff (hb : b.toNat < 0x80) (hd : String.utf8EncodeChar d = [b]) :
    (String.utf8EncodeChar c).getLast? = some b ↔ c = d := by
  constructor
  · intro h
    exact (mem_encodeChar_iff hb hd).mp (List.mem_of_getLast? h)
  · rintro rfl
    rw [hd, List.getLast?_singleton]

theorem getLast?_bytesOf_iff (hb : b.toNat < 0x80) (hd : String.utf8EncodeChar d = [b])
    {s : String} : (bytesOf s).getLast? = some b ↔ s.toList.getLast? = some d := by
  rw [← String.ofList_toList (s := s), bytesOf_ofList, String.toList_ofList]
  rcases List.eq_nil_or_concat s.toList with hs | ⟨cs, c, hs⟩
  · rw [hs]
    exact iff_of_false nofun nofun
  · rw [hs, List.concat_eq_append, List.flatMap_append, List.flatMap_singleton,
      List.getLast?_append_of_ne_nil _ String.utf8EncodeChar_ne_nil, getLast?_encodeChar_iff hb hd,
      List.getLast?_concat, Option.some_inj]

end

theorem newline_mem_bytesOf_iff {s : String} : newline ∈ bytesOf s ↔ '\n' ∈ s.toList :=
  mem_bytesOf_iff newline_lt (by decide)

theorem getLast?_bytesOf_return_iff {s : String} :
    (bytesOf s).getLast? = some carriageReturn ↔ s.toList.getLast? = some '\r' :=
  getLast?_bytesOf_iff carriageReturn_lt (by decide)

end Text

/-! ## lines with their endings -/

inductive LineEnd where
  | newline
  | returnNewline
deriving DecidableEq, Repr

def LineEnd.text : LineEnd → String
  | .newline => "\n"
  | .returnNewline => "\r\n"

/-- a text that can be a line, however it is ended -/
def IsLine (line : String) : Prop := '\n' ∉ line.toList ∧ line.toList.getLast? ≠ some '\r'

instance (line : String) : Decidable (IsLine line) := inferInstanceAs (Decidable (_ ∧ _))

/-- lines as they are written, each with its ending, and what follows the last ending -/
def written (lines : List (String × LineEnd)) (rest : String) : String :=
  String.join (lines.map fun (line, ending) => line ++ ending.text) ++ rest

theorem written_nil (rest : String) : written [] rest = rest := String.empty_append

theorem written_cons (line : String) (ending : LineEnd) (lines : List (String × LineEnd))
    (rest : String) :
    written ((line, ending) :: lines) rest = line ++ ending.text ++ written lines rest := by
  unfold written
  rw [List.map_cons, String.join_cons, String.append_assoc]

theorem dropReturn_of_ne {raw : List UInt8} (h : raw.getLast? ≠ some carriageReturn) :
    dropReturn raw = raw := if_neg h

theorem dropReturn_concat (raw : List UInt8) : dropReturn (raw ++ [carriageReturn]) = raw := by
  unfold dropReturn
  rw [if_pos List.getLast?_concat, List.dropLast_concat]

namespace Content

/-- the first line is cut off at its ending, whichever it has -/
theorem rawLines_ended {line : String} (h : IsLine line) (ending : LineEnd) (rest : String) :
    rawLines { bytes := Text.bytesOf (line ++ ending.text ++ rest) } =
      Text.bytesOf line :: rawLines { bytes := Text.bytesOf rest } := by
  have hnewline : newline ∉ Text.bytesOf line := mt Text.newline_mem_bytesOf_iff.mp h.1
  have hreturn : (Text.bytesOf line).getLast? ≠ some carriageReturn :=
    mt Text.getLast?_bytesOf_return_iff.mp h.2
  rw [Text.bytesOf_append, Text.bytesOf_append, List.append_assoc]
  cases ending with
  | newline =>
    show rawLines { bytes := Text.bytesOf line ++ newline :: Text.bytesOf rest } = _
    rw [rawLines_append_newline hnewline, dropReturn_of_ne hreturn]
  | returnNewline =>
    -- the carriage return is a part of the raw line
    have hnewline' : newline ∉ Text.bytesOf line ++ [carriageReturn] := by
      rw [List.mem_append, not_or]
      exact ⟨hnewline, by decide⟩
    show rawLines { bytes := Text.bytesOf line ++ carriageReturn :: newline :: Text.bytesOf rest } = _
    rw [List.append_cons, rawLines_append_newline hnewline', dropReturn_concat]

theorem rawLines_unended {rest : String} (h : '\n' ∉ rest.toList) :
    rawLines { bytes := Text.bytesOf rest } =
      (if rest = "" then [] else [rest]).map Text.bytesOf := by
  have hnil : Text.bytesOf rest = [] ∨ (none : Option Cause) ≠ none ↔ rest = "" := by
    rw [or_iff_left fun hn => hn rfl, ← Text.bytesOf_empty, Text.bytesOf_inj]
  rw [rawLines_of_notMem (mt Text.newline_mem_bytesOf_iff.mp h), if_congr hnil rfl rfl]
  split <;> rfl

theorem holds_written {lines : List (String × LineEnd)} {rest : String}
    (hlines : ∀ entry ∈ lines, IsLine entry.1) (hrest : '\n' ∉ rest.toList) :
    Holds { bytes := Text.bytesOf (written lines rest) }
      (lines.map Prod.fst ++ if rest = "" then [] else [rest]) := by
  refine ⟨rfl, ?_⟩
  induction lines with
  | nil =>
    rw [written_nil]
    exact rawLines_unended hrest
  | cons entry lines ih =>
    obtain ⟨line, ending⟩ := entry
    have hline : IsLine line := hlines (line, ending) List.mem_cons_self
    rw [written_cons, rawLines_ended hline,
      ih fun entry hentry => hlines entry (List.mem_cons_of_mem _ hentry)]
    rfl

end Content

/-- **A log is read as its lines, whatever their endings.**  Its trace is that of the lines without
their endings, replayed in order: the records, the number of lines and the warnings are the same. -/
theorem Trace.load_written (path : String) {lines : List (String × LineEnd)} {rest : String}
    (hlines : ∀ entry ∈ lines, IsLine entry.1) (hrest : '\n' ∉ rest.toList) :
    let log := lines.map Prod.fst ++ if rest = "" then [] else [rest]
    load path { bytes := Text.bytesOf (written lines rest) } =
        .ok (Loader.replay path log).trace ∧
      (Loader.replay path log).trace.lines = log.length := by
  intro log
  exact ⟨load_of_holds (Content.holds_written hlines hrest) path, Loader.lines_replay path log⟩

/-- an empty line, a carriage return inside a line that is skipped, and a last line without ending -/
theorem Trace.load_written_mixed :
    let lines : List (String × LineEnd) :=
      [("C\t5", .returnNewline), ("", .newline), ("S\t7\tx\r\tEX", .returnNewline)]
    let rest := "S\t7\t2\tEX"
    (∀ entry ∈ lines, IsLine entry.1) ∧ '\n' ∉ rest.toList ∧
    written lines rest = "C\t5\r\n\nS\t7\tx\r\tEX\r\nS\t7\t2\tEX" ∧
    ∃ t, load "a" { bytes := Text.bytesOf (written lines rest) } = .ok t ∧ t.lines = 4 ∧
      t.warnings.toList = [{ line := 3, text := "S\t7\tx\r\tEX",
                             error := .invalidInteger .relativeCycle "x" .invalidDigit }] ∧
      (t.find? 7).map (·.stage? "EX") = some (some 7) := by
  intro lines rest
  have hlines : ∀ entry ∈ lines, IsLine entry.1 := by decide
  have hrest : '\n' ∉ rest.toList := by decide
  obtain ⟨hload, hcount⟩ := load_written "a" hlines hrest
  exact ⟨hlines, hrest, by decide +kernel, _, hload, hcount, by decide +kernel, by decide +kernel⟩

end PipeTrace
