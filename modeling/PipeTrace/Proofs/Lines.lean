import PipeTrace.Proofs.Replay
import PipeTrace.Proofs.Text.WellFormed
import PipeTrace.Reading

/-!
# The lines of a file

What reading a file comes to, without a loader that is filled line by line: the file holds lines of
text to its end (`Content.Holds`), or reading stops at some line (`Content.StopsAt`).  Every content
is of one of both kinds, and `Trace.load` replays the lines of the first kind and fails for the
second.

The bytes are checked line by line, but a newline is no part of another character.  So a file can be
read exactly if its bytes as a whole are well-formed, and the line that is blamed is the one in
which they stop being so (`Trace.load_bytes`).
-/

set_option autoImplicit false

namespace PipeTrace

/-! ## cutting bytes into lines -/

theorem newline_lt : newline.toNat < 0x80 := by decide

theorem carriageReturn_lt : carriageReturn.toNat < 0x80 := by decide

/-- bytes are one line without a newline, or a line and a newline before other bytes -/
@[elab_as_elim]
theorem bytesByLines {motive : List UInt8 → Prop}
    (last : ∀ line, newline ∉ line → motive line)
    (ended : ∀ line rest, newline ∉ line → motive rest → motive (line ++ newline :: rest))
    (bytes : List UInt8) : motive bytes := by
  by_cases h : newline ∈ bytes
  · obtain ⟨line, rest, hbytes, hline⟩ := List.eq_append_cons_of_mem h
    have hlen : rest.length < bytes.length := by
      rw [hbytes, List.length_append, List.length_cons]
      omega
    rw [hbytes]
    exact ended line rest hline (bytesByLines last ended rest)
  · exact last bytes h
termination_by bytes.length

theorem wellFormed_dropReturn_iff {raw : List UInt8} :
    Text.WellFormed (dropReturn raw) ↔ Text.WellFormed raw := by
  unfold dropReturn
  split
  · rename_i h
    obtain ⟨ys, rfl⟩ := List.getLast?_eq_some_iff.mp h
    rw [List.dropLast_concat, Text.wellFormed_append_cons_iff carriageReturn_lt]
    exact ⟨fun hy => ⟨hy, Text.wellFormed_nil⟩, And.left⟩
  · exact Iff.rfl

namespace Content

section
variable {line rest : List UInt8} {fault : Option Cause}

theorem rawLines_of_notMem (h : newline ∉ line) (fault : Option Cause) :
    rawLines { bytes := line, fault } = if line = [] ∨ fault ≠ none then [] else [line] := by
  have hsplit : line.splitOn newline = [line] := List.splitOn_eq_singleton h
  unfold rawLines remainder endedLines
  simp only [hsplit, List.getLast_singleton, List.dropLast_singleton, List.map_nil,
    List.nil_append]

theorem rawLines_append_newline (h : newline ∉ line) (rest : List UInt8) (fault : Option Cause) :
    rawLines { bytes := line ++ newline :: rest, fault } =
      dropReturn line :: rawLines { bytes := rest, fault } := by
  have hsplit : (line ++ newline :: rest).splitOn newline = line :: rest.splitOn newline :=
    List.splitOn_append_cons_self_of_not_mem h rest
  have hne : rest.splitOn newline ≠ [] := List.splitOn_ne_nil newline rest
  unfold rawLines remainder endedLines
  simp only [hsplit, List.getLast_cons hne, List.dropLast_cons_of_ne_nil hne, List.map_cons]
  split
  · rfl
  · rw [List.cons_append]

/-! ## what reading a file comes to -/

/-- the file can be read to its end, and these are its lines -/
def Holds (c : Content) (lines : List String) : Prop :=
  c.fault = none ∧ c.rawLines = lines.map Text.bytesOf

/-- the lines before the one with the given number can be read, and this one cannot -/
inductive StopsAt (c : Content) : Nat → Cause → Prop
  | malformed (before : List String) (raw : List UInt8) (after : List (List UInt8))
    (hlines : c.rawLines = before.map Text.bytesOf ++ raw :: after)
    (hraw : ¬ Text.WellFormed raw) : StopsAt c (before.length + 1) .malformedText
  | fault (before : List String) {cause : Cause}
    (hlines : c.rawLines = before.map Text.bytesOf) (hfault : c.fault = some cause) :
    StopsAt c (before.length + 1) cause

/-- lines are texts, or there is a first one that is not -/
theorem texts_or_malformed (raws : List (List UInt8)) :
    (∃ lines : List String, raws = lines.map Text.bytesOf) ∨
      ∃ (before : List String) (raw : List UInt8) (after : List (List UInt8)),
        raws = before.map Text.bytesOf ++ raw :: after ∧ ¬ Text.WellFormed raw := by
  induction raws with
  | nil => exact Or.inl ⟨[], rfl⟩
  | cons raw raws ih =>
    by_cases hraw : Text.WellFormed raw
    · obtain ⟨line, hline⟩ := hraw
      rcases ih with ⟨lines, hlines⟩ | ⟨before, bad, after, hlines, hbad⟩
      · exact Or.inl ⟨line :: lines, by rw [hline, hlines, List.map_cons]⟩
      · refine Or.inr ⟨line :: before, bad, after, ?_, hbad⟩
        rw [hline, hlines, List.map_cons, List.cons_append]
    · exact Or.inr ⟨[], raw, raws, rfl, hraw⟩

theorem holds_or_stopsAt (c : Content) :
    (∃ lines, c.Holds lines) ∨ ∃ number cause, c.StopsAt number cause := by
  rcases texts_or_malformed c.rawLines with ⟨lines, hlines⟩ | ⟨before, raw, after, hlines, hraw⟩
  · cases hfault : c.fault with
    | none => exact Or.inl ⟨lines, hfault, hlines⟩
    | some cause => exact Or.inr ⟨_, cause, .fault _ hlines hfault⟩
  · exact Or.inr ⟨_, _, .malformed _ _ _ hlines hraw⟩

end

end Content

namespace Loader

theorem readLines_append (l : Loader) (lines : List String) (rest : List (List UInt8)) :
    l.readLines (lines.map Text.bytesOf ++ rest) = (l.feedAll lines).readLines rest := by
  induction lines generalizing l with
  | nil => rfl
  | cons line lines ih =>
    rw [List.map_cons, List.cons_append, readLines, Text.ofBytes?_bytesOf, feedAll_cons]
    exact ih (l.feed line)

theorem readLines_map (l : Loader) (lines : List String) :
    l.readLines (lines.map Text.bytesOf) = { loader := l.feedAll lines, stopped := none } := by
  have h := l.readLines_append lines []
  rwa [List.append_nil] at h

theorem readLines_cons_of_not_wellFormed (l : Loader) {raw : List UInt8}
    (h : ¬ Text.WellFormed raw) (rest : List (List UInt8)) :
    l.readLines (raw :: rest) = { loader := l, stopped := some .malformedText } := by
  rw [readLines, Text.ofBytes?_eq_none_iff.mpr h]

end Loader

namespace Trace

/-- a file that can be read ends with the replay of its lines -/
theorem ended_of_holds {c : Content} {lines : List String} (h : c.Holds lines) (path : String) :
    ((Loader.start path).read c).ended path = .ok (Loader.replay path lines) := by
  unfold Loader.read
  rw [h.2, Loader.readLines_map, h.1]
  rfl

theorem ended_of_stopsAt {c : Content} {number : Nat} {cause : Cause}
    (h : c.StopsAt number cause) (path : String) :
    ((Loader.start path).read c).ended path = .error (.cannotRead path number cause) := by
  unfold Loader.read
  cases h with
  | malformed before raw after hlines hraw =>
    rw [hlines, Loader.readLines_append, Loader.readLines_cons_of_not_wellFormed _ hraw]
    show Except.error (Failure.cannotRead path ((Loader.replay path before).trace.lines + 1) _) = _
    rw [Loader.lines_replay]
  | fault before hlines hfault =>
    rw [hlines, Loader.readLines_map, hfault]
    show Except.error (Failure.cannotRead path ((Loader.replay path before).trace.lines + 1) _) = _
    rw [Loader.lines_replay]

/-- the trace of a file that can be read is that of its lines -/
theorem load_of_holds {c : Content} {lines : List String} (h : c.Holds lines) (path : String) :
    load path c = .ok (Loader.replay path lines).trace := by
  unfold load
  rw [ended_of_holds h]
  rfl

theorem load_of_stopsAt {c : Content} {number : Nat} {cause : Cause}
    (h : c.StopsAt number cause) (path : String) :
    load path c = .error (.cannotRead path number cause) := by
  unfold load
  rw [ended_of_stopsAt h]
  rfl

/-- a file that was loaded holds lines, and its trace is theirs -/
theorem exists_holds_of_load {path : String} {content : Content} {t : Trace}
    (h : load path content = .ok t) :
    ∃ lines, content.Holds lines ∧ t = (Loader.replay path lines).trace := by
  rcases content.holds_or_stopsAt with ⟨lines, hlines⟩ | ⟨number, cause, hstop⟩
  · rw [load_of_holds hlines] at h
    cases h
    exact ⟨lines, hlines, rfl⟩
  · rw [load_of_stopsAt hstop] at h
    cases h

end Trace

/-! ## bytes as a whole -/

namespace Content

section
variable {line rest bytes : List UInt8} {fault : Option Cause}

theorem Holds.cons {lines : List String} (h : Holds { bytes := rest, fault } lines)
    (hline : newline ∉ line) (hwell : Text.WellFormed line) :
    ∃ s, Holds { bytes := line ++ newline :: rest, fault } (s :: lines) := by
  obtain ⟨s, hs⟩ := wellFormed_dropReturn_iff.mpr hwell
  refine ⟨s, h.1, ?_⟩
  rw [rawLines_append_newline hline, h.2, hs, List.map_cons]

theorem StopsAt.cons {number : Nat} {cause : Cause}
    (h : StopsAt { bytes := rest, fault } number cause) (hline : newline ∉ line)
    (hwell : Text.WellFormed line) :
    StopsAt { bytes := line ++ newline :: rest, fault } (number + 1) cause := by
  obtain ⟨s, hs⟩ := wellFormed_dropReturn_iff.mpr hwell
  cases h with
  | malformed before raw after hlines hraw =>
    refine .malformed (s :: before) raw after ?_ hraw
    rw [rawLines_append_newline hline, hlines, hs, List.map_cons, List.cons_append]
  | fault before hlines hfault =>
    refine .fault (s :: before) ?_ hfault
    rw [rawLines_append_newline hline, hlines, hs, List.map_cons]

end

theorem count_append_newline {line : List UInt8} (h : newline ∉ line) (rest : List UInt8) :
    (line ++ newline :: rest).count newline = rest.count newline + 1 := by
  rw [List.count_append, List.count_eq_zero_of_not_mem h, List.count_cons_self, Nat.zero_add]

/-- how many lines bytes make: the newlines, and one more if something follows the last of them -/
def lineCount (bytes : List UInt8) : Nat :=
  bytes.count newline + if bytes = [] ∨ bytes.getLast? = some newline then 0 else 1

theorem lineCount_of_notMem {line : List UInt8} (h : newline ∉ line) :
    lineCount line = if line = [] then 0 else 1 := by
  have hlast : line.getLast? ≠ some newline := fun hl => h (List.mem_of_getLast? hl)
  unfold lineCount
  rw [List.count_eq_zero_of_not_mem h, Nat.zero_add]
  exact if_congr (or_iff_left hlast) rfl rfl

theorem lineCount_append_newline {line : List UInt8} (h : newline ∉ line) (rest : List UInt8) :
    lineCount (line ++ newline :: rest) = lineCount rest + 1 := by
  have hlast : (line ++ newline :: rest = [] ∨
      (line ++ newline :: rest).getLast? = some newline) ↔
        rest = [] ∨ rest.getLast? = some newline := by
    cases rest with
    | nil => simp
    | cons b rest => simp [List.getLast?_append, List.getLast?_cons]
  unfold lineCount
  rw [count_append_newline h, if_congr hlast rfl rfl]
  omega

/-- well-formed bytes can be read to the end -/
theorem exists_holds {bytes : List UInt8} (h : Text.WellFormed bytes) :
    ∃ lines, Holds { bytes } lines ∧ lines.length = lineCount bytes := by
  induction bytes using bytesByLines with
  | last line hline =>
    rw [lineCount_of_notMem hline]
    unfold Holds
    rw [rawLines_of_notMem hline]
    by_cases hnil : line = []
    · exact ⟨[], ⟨rfl, if_pos (Or.inl hnil)⟩, (if_pos hnil).symm⟩
    · obtain ⟨s, rfl⟩ := h
      refine ⟨[s], ⟨rfl, if_neg ?_⟩, (if_neg hnil).symm⟩
      exact fun hor => hor.elim hnil fun hf => hf rfl
  | ended line rest hline ih =>
    obtain ⟨hwell, hrest⟩ := (Text.wellFormed_append_cons_iff newline_lt).mp h
    obtain ⟨lines, hlines, hlen⟩ := ih hrest
    obtain ⟨s, hs⟩ := hlines.cons hline hwell
    refine ⟨s :: lines, hs, ?_⟩
    rw [List.length_cons, hlen, lineCount_append_newline hline]

/-- other bytes can be read up to the line in which they stop being well-formed -/
theorem stopsAt_of_not_wellFormed {bytes : List UInt8} (h : ¬ Text.WellFormed bytes) :
    StopsAt { bytes } (1 + (bytes.take (Text.validUpTo bytes)).count newline) .malformedText := by
  have hnone : ∀ {line : List UInt8} (n : Nat), newline ∉ line →
      (line.take n).count newline = 0 := fun n hline =>
    List.count_eq_zero_of_not_mem fun hmem => hline (List.mem_of_mem_take hmem)
  induction bytes using bytesByLines with
  | last line hline =>
    rw [hnone _ hline]
    refine .malformed [] line [] ?_ h
    rw [rawLines_of_notMem hline, if_neg]
    · rfl
    · rintro (rfl | hf)
      · exact h Text.wellFormed_nil
      · exact hf rfl
  | ended line rest hline ih =>
    by_cases hwell : Text.WellFormed line
    · have hrest : ¬ Text.WellFormed rest := fun hr =>
        h ((Text.wellFormed_append_cons_iff newline_lt).mpr ⟨hwell, hr⟩)
      rw [Text.validUpTo_append_cons newline_lt hwell, Text.take_append_cons,
        count_append_newline hline, ← Nat.add_assoc]
      exact (ih hrest).cons hline hwell
    · have hle := Text.validUpTo_append_cons_le newline_lt hwell rest
      rw [List.take_append_of_le_length hle, hnone _ hline]
      refine .malformed [] (dropReturn line) (rawLines { bytes := rest }) ?_ ?_
      · rw [rawLines_append_newline hline]
        rfl
      · rwa [wellFormed_dropReturn_iff]

end Content

/-- **A file can be read exactly if its bytes are well-formed.**  If they are not, the line in which
they stop being well-formed is blamed, whatever is in the lines before. -/
theorem Trace.load_bytes (path : String) (bytes : List UInt8) :
    ((∃ t, load path { bytes } = .ok t) ↔ Text.WellFormed bytes) ∧
    (¬ Text.WellFormed bytes → load path { bytes } = .error
      (.cannotRead path (1 + (bytes.take (Text.validUpTo bytes)).count newline) .malformedText)) ∧
    (∀ t, load path { bytes } = .ok t →
      t.lines = bytes.count newline +
        if bytes = [] ∨ bytes.getLast? = some newline then 0 else 1) := by
  by_cases h : Text.WellFormed bytes
  · obtain ⟨lines, hlines, hlen⟩ := Content.exists_holds h
    have hload := load_of_holds hlines path
    refine ⟨iff_of_true ⟨_, hload⟩ h, fun hn => absurd h hn, ?_⟩
    intro t ht
    obtain rfl := Except.ok.inj (hload.symm.trans ht)
    rw [Loader.lines_replay, hlen]
    rfl
  · have hload := load_of_stopsAt (Content.stopsAt_of_not_wellFormed h) path
    have hnot : ∀ t, load path { bytes } ≠ .ok t := by
      intro t ht
      cases hload.symm.trans ht
    exact ⟨iff_of_false (fun ⟨t, ht⟩ => hnot t ht) h, fun _ => hload,
      fun t ht => absurd ht (hnot t)⟩

end PipeTrace
