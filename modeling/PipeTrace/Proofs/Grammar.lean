import PipeTrace.Proofs.Numerals
import PipeTrace.Proofs.Text.Trimming

/-!
# The grammar of a line

`Event.Says` tells what a line comes to, by its fields: the pieces of the trimmed line between tabs,
the code first.  Every field that is looked at is there.

* a line without a second field, or with a code that is not known, says nothing;
* the integer after the code is read first, and for all codes but that of an entry the other fields
  do not matter;
* an entry needs three fields after its code, whatever is in them, then two integers.

The label of an instruction is cut into fields with the rest of the line and put together again with
spaces.  That comes to what follows the third tab of the line, with spaces for its tabs
(`labelText_eq`).
-/

set_option autoImplicit false

namespace PipeTrace

/-! ## what follows a separator -/

namespace Text

section
variable {α : Type} [DecidableEq α]

/-- what follows the separator with the given number, counted from 1; nothing if there are fewer -/
def afterSep (sep : α) : Nat → List α → List α
  | 0, as => as
  | n + 1, as => afterSep sep n (as.dropWhile (· ≠ sep)).tail

variable {sep : α}

theorem afterSep_nil (sep : α) (n : Nat) : afterSep sep n [] = [] := by
  induction n with
  | zero => rfl
  | succ n ih => exact ih

theorem afterSep_isSuffix (sep : α) (n : Nat) (as : List α) : afterSep sep n as <:+ as := by
  induction n generalizing as with
  | zero => exact List.suffix_rfl
  | succ n ih =>
    exact (ih _).trans ((List.tail_suffix _).trans (List.dropWhile_suffix _))

theorem afterSep_succ_append {before : List α} (h : sep ∉ before) (n : Nat) (after : List α) :
    afterSep sep (n + 1) (before ++ sep :: after) = afterSep sep n after := by
  have hskip : ∀ a ∈ before, decide (a ≠ sep) = true := by
    intro a ha
    exact decide_eq_true fun heq => h (heq ▸ ha)
  have hstop : (sep :: after).dropWhile (fun a => decide (a ≠ sep)) = sep :: after :=
    List.dropWhile_cons_of_neg (by simp)
  rw [afterSep, List.dropWhile_append_of_pos hskip, hstop, List.tail_cons]

theorem afterSep_succ_of_notMem {as : List α} (h : sep ∉ as) (n : Nat) :
    afterSep sep (n + 1) as = [] := by
  have hskip : as.dropWhile (fun a => decide (a ≠ sep)) = [] :=
    List.dropWhile_eq_nil_iff.mpr fun a ha => decide_eq_true fun heq => h (heq ▸ ha)
  rw [afterSep, hskip]
  exact afterSep_nil sep n

/-- the pieces after the first ones, put together again, are what follows a separator -/
theorem intercalate_drop_splitOn (n : Nat) (as : List α) :
    [sep].intercalate ((as.splitOn sep).drop n) = afterSep sep n as := by
  induction n generalizing as with
  | zero => exact List.intercalate_splitOn sep
  | succ n ih =>
    by_cases hsep : sep ∈ as
    · obtain ⟨before, after, rfl, hbefore⟩ := List.eq_append_cons_of_mem hsep
      rw [List.splitOn_append_cons_self_of_not_mem hbefore, List.drop_succ_cons, ih,
        afterSep_succ_append hbefore]
    · rw [List.splitOn_eq_singleton hsep, afterSep_succ_of_notMem hsep, List.drop_succ_cons,
        List.drop_nil]
      rfl

end

theorem map_intercalate {α β : Type} (f : α → β) (sep : α) (pieces : List (List α)) :
    ([sep].intercalate pieces).map f = [f sep].intercalate (pieces.map (List.map f)) := by
  induction pieces with
  | nil => rfl
  | cons first rest ih =>
    cases rest with
    | nil => simp
    | cons second rest =>
      rw [List.intercalate_cons_cons, List.map_append, List.map_append, ih]
      simp only [List.map_cons, List.map_nil, List.intercalate_cons_cons]

def untab (c : Char) : Char := if c = '\t' then ' ' else c

theorem untab_of_ne {c : Char} (h : c ≠ '\t') : untab c = c := if_neg h

theorem untab_ne_tab (c : Char) : untab c ≠ '\t' := by
  unfold untab
  split
  · decide
  · assumption

theorem map_untab_of_notMem {cs : List Char} (h : '\t' ∉ cs) : cs.map untab = cs :=
  (List.map_congr_left fun _ hc => untab_of_ne fun heq => h (heq ▸ hc)).trans (List.map_id' _)

/-- fields after the first ones, put together with spaces -/
theorem intercalate_space_drop_splitOn (n : Nat) (cs : List Char) :
    [' '].intercalate ((cs.splitOn '\t').drop n) = (afterSep '\t' n cs).map untab := by
  rw [← intercalate_drop_splitOn, map_intercalate]
  have hpieces : ((cs.splitOn '\t').drop n).map (List.map untab) = (cs.splitOn '\t').drop n := by
    refine (List.map_congr_left fun piece hpiece => ?_).trans (List.map_id' _)
    exact map_untab_of_notMem (notMem_of_mem_splitOn cs (List.mem_of_mem_drop hpiece))
  rw [hpieces]
  rfl

end Text

/-! ## events -/

def EventCode.firstField : EventCode → IntField
  | .advance => .cycleDelta
  | .setCycle => .cycleValue
  | .introduce => .instructionId
  | .label => .instructionId
  | .enter => .instructionId

namespace Event

open Decimal (Denotes)

/-- what a trimmed line comes to -/
inductive Says (t : List Char) : Except LineError (Option Event) → Prop
  | noFields {f0 : List Char} (hfields : t.splitOn '\t' = [f0]) : Says t (.ok none)
  | unknown {f0 : List Char} {args : List (List Char)} (hfields : t.splitOn '\t' = f0 :: args)
    (hcode : ∀ code : EventCode, f0 ≠ code.text.toList) : Says t (.ok none)
  | advance {f1 : List Char} {more : List (List Char)} {delta : Cycle}
    (hfields : t.splitOn '\t' = ['C'] :: f1 :: more)
    (hdelta : Denotes (Text.trim f1) delta.toInt) : Says t (.ok (some (.advance delta)))
  | setCycle {f1 : List Char} {more : List (List Char)} {value : Cycle}
    (hfields : t.splitOn '\t' = ['C', '='] :: f1 :: more)
    (hvalue : Denotes (Text.trim f1) value.toInt) : Says t (.ok (some (.setCycle value)))
  | introduce {f1 : List Char} {more : List (List Char)} {id : InstrId}
    (hfields : t.splitOn '\t' = ['I'] :: f1 :: more)
    (hid : Denotes (Text.trim f1) id.toInt) : Says t (.ok (some (.introduce id)))
  | label {f1 : List Char} {more : List (List Char)} {id : InstrId}
    (hfields : t.splitOn '\t' = ['L'] :: f1 :: more)
    (hid : Denotes (Text.trim f1) id.toInt) :
    Says t (.ok (some (.label id (String.ofList ((Text.afterSep '\t' 3 t).map Text.untab)))))
  | enter {f1 f2 f3 : List Char} {more : List (List Char)} {id : InstrId} {relative : Cycle}
    (hfields : t.splitOn '\t' = ['S'] :: f1 :: f2 :: f3 :: more)
    (hid : Denotes (Text.trim f1) id.toInt) (hrelative : Denotes (Text.trim f2) relative.toInt) :
    Says t (.ok (some (.enter id relative (String.ofList f3))))
  | tooShort {args : List (List Char)} (hfields : t.splitOn '\t' = ['S'] :: args)
    (hsome : args ≠ []) (hshort : args.length < 3) :
    Says t (.error (.missingField .enter 3 args.length))
  | badFirst {code : EventCode} {f1 : List Char} {more : List (List Char)} {error : LineError}
    (hfields : t.splitOn '\t' = code.text.toList :: f1 :: more)
    (hlong : code = .enter → 3 ≤ (f1 :: more).length)
    (hbad : code.firstField.Rejects f1 error) : Says t (.error error)
  | badRelative {f1 f2 f3 : List Char} {more : List (List Char)} {id : InstrId}
    {error : LineError} (hfields : t.splitOn '\t' = ['S'] :: f1 :: f2 :: f3 :: more)
    (hid : Denotes (Text.trim f1) id.toInt) (hbad : IntField.relativeCycle.Rejects f2 error) :
    Says t (.error error)

section
variable {t : List Char} {result : Except LineError (Option Event)}

theorem labelText_eq {f0 f1 : List Char} {rest : List (List Char)}
    (h : t.splitOn '\t' = f0 :: f1 :: rest) :
    labelText rest = String.ofList ((Text.afterSep '\t' 3 t).map Text.untab) := by
  unfold labelText
  rw [← Text.intercalate_space_drop_splitOn, h]
  rfl

/-! ## decoding -/

theorem ofFields_known (code : EventCode) (f1 : List Char) (rest : List (List Char)) :
    ofFields (code.text.toList :: f1 :: rest) = (decode code f1 rest).map some := by
  unfold ofFields
  simp only [EventCode.ofField?_text]

theorem ofFields_unknown {f0 : List Char} (h : ∀ code : EventCode, f0 ≠ code.text.toList)
    (args : List (List Char)) : ofFields (f0 :: args) = .ok none := by
  cases args with
  | nil => rfl
  | cons f1 rest =>
    have hnone : EventCode.ofField? f0 = none :=
      Option.eq_none_iff_forall_ne_some.mpr fun code hcode =>
        h code (EventCode.ofField?_eq_some_iff.mp hcode)
    unfold ofFields
    simp only [hnone]

/-- an integer field is read, or its error ends the decoding -/
theorem says_of_read {field : IntField} {f : List Char} {next : Int64 → Except LineError Event}
    (hok : ∀ w, Denotes (Text.trim f) w.toInt → Says t ((next w).map some))
    (hbad : ∀ error, field.Rejects f error → Says t (.error error)) :
    Says t ((field.read f >>= next).map some) := by
  cases hread : field.read f with
  | ok w => exact hok w (IntField.read_eq_ok_iff.mp hread)
  | error error => exact hbad error (IntField.read_eq_error_iff.mp hread)

theorem says_decode {code : EventCode} {f1 : List Char} {rest : List (List Char)}
    (hfields : t.splitOn '\t' = code.text.toList :: f1 :: rest) :
    Says t ((decode code f1 rest).map some) := by
  cases code with
  | advance =>
    exact says_of_read (fun w hw => .advance hfields hw) fun e he => .badFirst hfields nofun he
  | setCycle =>
    exact says_of_read (fun w hw => .setCycle hfields hw) fun e he => .badFirst hfields nofun he
  | introduce =>
    exact says_of_read (fun w hw => .introduce hfields hw) fun e he => .badFirst hfields nofun he
  | label =>
    refine says_of_read (fun w hw => ?_) fun e he => .badFirst hfields nofun he
    rw [labelText_eq hfields]
    exact .label hfields hw
  | enter =>
    match rest with
    | [] => exact .tooShort hfields (List.cons_ne_nil _ _) (by simp)
    | [_] => exact .tooShort hfields (List.cons_ne_nil _ _) (by simp)
    | f2 :: f3 :: more =>
      refine says_of_read (fun id hid => ?_) fun e he => .badFirst hfields (fun _ => ?_) he
      · exact says_of_read (fun relative hrelative => .enter hfields hid hrelative)
          fun e he => .badRelative hfields hid he
      · exact Nat.le_add_left 3 more.length

theorem says_parse (line : String) : Says (Text.trim line.toList) (parse line) := by
  unfold parse
  match hfields : (Text.trim line.toList).splitOn '\t' with
  | [] => exact absurd hfields (List.splitOn_ne_nil _ _)
  | [f0] => exact .noFields hfields
  | f0 :: f1 :: rest =>
    by_cases hcode : ∃ code : EventCode, f0 = code.text.toList
    · obtain ⟨code, rfl⟩ := hcode
      rw [ofFields_known]
      exact says_decode hfields
    · have hunknown := not_exists.mp hcode
      rw [ofFields_unknown hunknown]
      exact .unknown hfields hunknown

/-- a bad integer after the code is reported first, if an entry is long enough -/
theorem decode_of_read_eq_error {code : EventCode} {f1 : List Char} {more : List (List Char)}
    {error : LineError} (hread : code.firstField.read f1 = .error error)
    (hlong : code = .enter → 3 ≤ (f1 :: more).length) : decode code f1 more = .error error := by
  unfold EventCode.firstField at hread
  cases code with
  | advance => simp only [decode, hread]; rfl
  | setCycle => simp only [decode, hread]; rfl
  | introduce => simp only [decode, hread]; rfl
  | label => simp only [decode, hread]; rfl
  | enter =>
    match more with
    | [] => exact absurd (hlong rfl) (by simp)
    | [_] => exact absurd (hlong rfl) (by simp)
    | _ :: _ :: _ => simp only [decode, hread]; rfl

theorem ofFields_of_decode {code : EventCode} {f1 : List Char} {more : List (List Char)}
    {decoded : Except LineError Event} (hfields : t.splitOn '\t' = code.text.toList :: f1 :: more)
    (hdecode : decode code f1 more = decoded) : ofFields (t.splitOn '\t') = decoded.map some := by
  rw [hfields, ofFields_known, hdecode]

/-- what a line comes to is determined -/
theorem Says.ofFields_eq (h : Says t result) : ofFields (t.splitOn '\t') = result := by
  cases h with
  | noFields hfields => rw [hfields, ofFields_single]
  | unknown hfields hcode => rw [hfields, ofFields_unknown hcode]
  | @advance f1 more delta hfields hdelta =>
    have hdecode : decode .advance f1 more = .ok (.advance delta) := by
      simp only [decode, IntField.read_eq_ok_iff.mpr hdelta]
      rfl
    exact ofFields_of_decode hfields hdecode
  | @setCycle f1 more value hfields hvalue =>
    have hdecode : decode .setCycle f1 more = .ok (.setCycle value) := by
      simp only [decode, IntField.read_eq_ok_iff.mpr hvalue]
      rfl
    exact ofFields_of_decode hfields hdecode
  | @introduce f1 more id hfields hid =>
    have hdecode : decode .introduce f1 more = .ok (.introduce id) := by
      simp only [decode, IntField.read_eq_ok_iff.mpr hid]
      rfl
    exact ofFields_of_decode hfields hdecode
  | @label f1 more id hfields hid =>
    have hdecode : decode .label f1 more = .ok (.label id (labelText more)) := by
      simp only [decode, IntField.read_eq_ok_iff.mpr hid]
      rfl
    rw [← labelText_eq hfields]
    exact ofFields_of_decode hfields hdecode
  | @enter f1 f2 f3 more id relative hfields hid hrelative =>
    have hdecode : decode .enter f1 (f2 :: f3 :: more) =
        .ok (.enter id relative (String.ofList f3)) := by
      simp only [decode, IntField.read_eq_ok_iff.mpr hid, IntField.read_eq_ok_iff.mpr hrelative]
      rfl
    exact ofFields_of_decode hfields hdecode
  | @tooShort args hfields hsome hshort =>
    rw [hfields]
    match args with
    | [] => exact absurd rfl hsome
    | [_] => rfl
    | [_, _] => rfl
    | _ :: _ :: _ :: more => exact absurd hshort (Nat.not_lt.mpr (Nat.le_add_left 3 more.length))
  | badFirst hfields hlong hbad =>
    exact ofFields_of_decode hfields
      (decode_of_read_eq_error (IntField.read_eq_error_iff.mpr hbad) hlong)
  | @badRelative f1 f2 f3 more id error hfields hid hbad =>
    have hdecode : decode .enter f1 (f2 :: f3 :: more) = .error error := by
      simp only [decode, IntField.read_eq_ok_iff.mpr hid, IntField.read_eq_error_iff.mpr hbad]
      rfl
    exact ofFields_of_decode hfields hdecode

theorem parse_eq_iff {line : String} :
    parse line = result ↔ Says (Text.trim line.toList) result := by
  constructor
  · rintro rfl
    exact says_parse line
  · exact Says.ofFields_eq

end

/-! ## arguments by their numbers -/

/-- the integer in an argument, which is looked up by its number, counted from 0 -/
def readAt (code : EventCode) (args : List (List Char)) (index : Nat) (field : IntField) :
    Except LineError Int64 :=
  if h : index < args.length then field.read args[index]
  else .error (.missingField code (index + 1) args.length)

/-- decodes the arguments of an event, each of them looked up with a check that it is there -/
def decodeAt (code : EventCode) (args : List (List Char)) : Except LineError Event :=
  match code with
  | .advance => do return .advance (← readAt code args 0 .cycleDelta)
  | .setCycle => do return .setCycle (← readAt code args 0 .cycleValue)
  | .introduce => do return .introduce (← readAt code args 0 .instructionId)
  | .label => do
    return .label (← readAt code args 0 .instructionId)
      (String.ofList ([' '].intercalate (args.drop 2)))
  | .enter =>
    if h : args.length < 3 then .error (.missingField code 3 args.length)
    else do
      let id ← readAt code args 0 .instructionId
      let relative ← readAt code args 1 .relativeCycle
      return .enter id relative (String.ofList args[2])

theorem readAt_of_lt (code : EventCode) {args : List (List Char)} {index : Nat}
    (h : index < args.length) (field : IntField) :
    readAt code args index field = field.read args[index] := dif_pos h

/-- a line with a second field has all arguments that are looked up -/
theorem decodeAt_cons (code : EventCode) (f1 : List Char) (rest : List (List Char)) :
    decodeAt code (f1 :: rest) = decode code f1 rest := by
  have hfirst : ∀ field, readAt code (f1 :: rest) 0 field = field.read f1 :=
    readAt_of_lt code (Nat.zero_lt_succ rest.length)
  cases code with
  | advance => simp only [decodeAt, decode, hfirst]
  | setCycle => simp only [decodeAt, decode, hfirst]
  | introduce => simp only [decodeAt, decode, hfirst]
  | label =>
    simp only [decodeAt, decode, hfirst]
    rfl
  | enter =>
    cases rest with
    | nil => rfl
    | cons f2 rest =>
      cases rest with
      | nil => rfl
      | cons f3 more =>
        have hlong : ¬ (f1 :: f2 :: f3 :: more).length < 3 :=
          Nat.not_lt.mpr (Nat.le_add_left 3 more.length)
        unfold decodeAt
        simp only [dif_neg hlong, hfirst]
        rfl

/-- **The grammar of a line.**  What a line comes to is what its fields say, and nothing else.  It
says nothing if it has no second field or a code that is not known; fields are missing only if it is
an entry with one field or two after its code, whatever they hold; and a check of each field that is
looked at would change nothing. -/
theorem parse_follows_grammar (line : String) :
    let t := Text.trim line.toList
    (∀ result, parse line = result ↔ Says t result) ∧
    (parse line = .ok none ↔ ∃ f0 args, t.splitOn '\t' = f0 :: args ∧
      (args = [] ∨ ∀ code : EventCode, f0 ≠ code.text.toList)) ∧
    (∀ code expected actual, parse line = .error (.missingField code expected actual) ↔
      code = .enter ∧ expected = 3 ∧ ∃ args, t.splitOn '\t' = ['S'] :: args ∧
        args.length = actual ∧ 1 ≤ actual ∧ actual < 3) ∧
    (∀ (code : EventCode) (args : List (List Char)), t.splitOn '\t' = code.text.toList :: args →
      args ≠ [] → parse line = (decodeAt code args).map some) := by
  intro t
  refine ⟨fun result => parse_eq_iff, ?_, fun code expected actual => ?_, ?_⟩
  · rw [parse_eq_iff]
    constructor
    · intro h
      cases h with
      | noFields hfields => exact ⟨_, [], hfields, Or.inl rfl⟩
      | unknown hfields hcode => exact ⟨_, _, hfields, Or.inr hcode⟩
    · rintro ⟨f0, args, hfields, rfl | hcode⟩
      · exact .noFields hfields
      · exact .unknown hfields hcode
  · rw [parse_eq_iff]
    constructor
    · intro h
      cases h with
      | tooShort hfields hsome hshort =>
        exact ⟨rfl, rfl, _, hfields, rfl, List.length_pos_iff.mpr hsome, hshort⟩
      | badFirst hfields hlong hbad =>
        obtain ⟨reason, herror, -⟩ := hbad
        cases herror
      | badRelative hfields hid hbad =>
        obtain ⟨reason, herror, -⟩ := hbad
        cases herror
    · rintro ⟨rfl, rfl, args, hfields, rfl, hsome, hshort⟩
      exact .tooShort hfields (List.length_pos_iff.mp hsome) hshort
  · intro code args hfields hsome
    obtain ⟨f1, rest, rfl⟩ := List.exists_cons_of_ne_nil hsome
    rw [decodeAt_cons]
    exact ofFields_of_decode hfields rfl

end Event

end PipeTrace
