import Mathlib.Data.List.Basic
import PipeTrace.CommandLine.Scan

/-!
# A scan of the command line follows the rules

`Scan.parser` is a parser that has the laws (`Scan.parser_laws`).

* `Scan.Carries`           what is done to a scan is done in the same way if one more use of an
                           option was read before, and that use is in order in the end;
* `Scan.scan_of_settle`    it makes no difference whether a value still waits or is settled;
* `Scan.scan_writes`       a use of an option is read as what it writes, wherever it stands.

A value that was met waits until the next argument settles it, so after an option the scan itself
still differs from what was said.  What it comes to when it is settled is the invariant of all that
follows: `s.settle = .ok t`.
-/

set_option autoImplicit false

namespace PipeTrace.CommandLine.Scan

variable {s t : Scan} {use : Use} {param : Param} {text : String}

/-! ## what is settled -/

/-- a parameter that was given its value has it, and nothing else changed -/
theorem assign_eq_ok_iff : s.assign param text = .ok t ↔
    (param.repeats = true ∨ s.has param = false) ∧ param.allows text = true ∧
      t = s.give param text := by
  unfold assign
  split
  · rename_i h
    refine iff_of_false nofun fun hok => ?_
    rcases hok.1 with hrepeats | hnot
    · rw [hrepeats] at h
      cases h.1
    · rw [hnot] at h
      cases h.2
  · rename_i h
    have hfree : param.repeats = true ∨ s.has param = false := by
      by_cases hrepeats : param.repeats = true
      · exact .inl hrepeats
      · exact .inr (Bool.eq_false_iff.mpr fun hhas => h ⟨Bool.eq_false_iff.mpr hrepeats, hhas⟩)
    split
    · rename_i hallows
      rw [Except.ok.injEq, eq_comm]
      exact ⟨fun heq => ⟨hfree, hallows, heq⟩, fun hok => hok.2.2⟩
    · rename_i hallows
      refine iff_of_false ?_ fun hok => hallows hok.2.1
      split <;> nofun

theorem waiting_give (s : Scan) (param : Param) (text : String) :
    (s.give param text).waiting = s.waiting := by
  cases param with
  | stages | color => rfl
  | file side => cases side <;> rfl

/-- what is settled: nothing waited, or a value that waited was assigned -/
theorem settle_cases (h : s.settle = .ok t) :
    (s.waiting = none ∧ t = s) ∨
    ∃ param text, s.waiting = some (param, some text) ∧
      { s with waiting := none }.assign param text = .ok t := by
  unfold settle at h
  split at h
  · rename_i hwaiting
    cases h
    exact .inl ⟨hwaiting, rfl⟩
  · cases h
  · rename_i param text hwaiting
    exact .inr ⟨param, text, hwaiting, h⟩

theorem waiting_of_settle (h : s.settle = .ok t) : t.waiting = none := by
  obtain ⟨hwaiting, rfl⟩ | ⟨param, text, -, hassign⟩ := settle_cases h
  · exact hwaiting
  · obtain ⟨-, -, rfl⟩ := assign_eq_ok_iff.mp hassign
    exact waiting_give _ param text

theorem settle_of_waiting (h : s.waiting = none) : s.settle = .ok s := by
  unfold settle
  rw [h]

theorem settle_of_settle (h : s.settle = .ok t) : t.settle = .ok t :=
  settle_of_waiting (waiting_of_settle h)

/-- a value that waits is assigned to what was settled before -/
theorem settle_waiting (h : s.waiting = none) (param : Param) (text : String) :
    { s with waiting := some (param, some text) }.settle = s.assign param text := by
  obtain ⟨left, right, stages, color, metrics, verbose, waiting⟩ := s
  cases h
  rfl

/-- a file that waits was met, as one that is settled -/
theorem hasFile_of_settle (h : s.settle = .ok t) (side : Side) : s.hasFile side = t.hasFile side := by
  unfold hasFile
  rw [waiting_of_settle h]
  obtain ⟨hwaiting, rfl⟩ | ⟨param, text, hwaiting, hassign⟩ := settle_cases h
  · rw [hwaiting]
  · obtain ⟨-, -, rfl⟩ := assign_eq_ok_iff.mp hassign
    rw [hwaiting]
    cases param with
    | stages | color => cases side <;> simp [has, give]
    | file other => cases side <;> cases other <;> simp [has, give]

theorem place?_of_settle (h : s.settle = .ok t) : s.place? = t.place? := by
  unfold place?
  simp only [hasFile_of_settle h]

theorem value_of_settle (h : s.settle = .ok t) (arg : String) : s.value arg = s.file arg := by
  unfold Scan.value
  obtain ⟨hwaiting, -⟩ | ⟨_, _, hwaiting, -⟩ := settle_cases h <;> rw [hwaiting]

/-! ## a value that waits, and one that is settled -/

section
variable (h : s.settle = .ok t)
include h

theorem await_of_settle (param : Param) (text? : Option String) :
    s.await param text? = t.await param text? := by
  unfold await
  rw [h, settle_of_settle h]

theorem attached_of_settle (param : Param) (text : String) :
    s.attached param text = t.attached param text := by
  unfold attached
  rw [h, settle_of_settle h]

theorem switch_of_settle (sw : Switch) : s.switch sw = t.switch sw := by
  unfold switch
  rw [h, settle_of_settle h]

theorem long_of_settle (body : List Char) : s.long body = t.long body := by
  unfold long
  simp only [await_of_settle h, attached_of_settle h, switch_of_settle h]

theorem short_of_settle (letter : Char) (rest : List Char) :
    s.short (letter :: rest) = t.short (letter :: rest) := by
  unfold short
  simp only [await_of_settle h, attached_of_settle h, switch_of_settle h]

theorem file_of_settle (name : String) : s.file name = t.file name := by
  unfold file
  simp only [await_of_settle h, place?_of_settle h]

theorem step_of_settle (arg : String) : s.step arg = t.step arg := by
  unfold step
  simp only [long_of_settle h, short_of_settle h, value_of_settle h,
    value_of_settle (settle_of_settle h), file_of_settle h]

/-- **It makes no difference whether a value waits or is settled.** -/
theorem scan_of_settle (args : List String) : s.scan args = t.scan args := by
  cases args with
  | nil =>
    show s.settle = t.settle
    rw [h, settle_of_settle h]
  | cons arg args =>
    unfold scan
    rw [step_of_settle h]
    split
    · cases args with
      | nil =>
        show s.settle = t.settle
        rw [h, settle_of_settle h]
      | cons name names => rw [List.foldlM_cons, List.foldlM_cons, file_of_settle h]
    · rfl

end

/-! ## one more use of an option -/

/-- a scan with one more use of an option, before all others -/
def add (s : Scan) : Use → Scan
  | .value .stages text => { s with stages := text :: s.stages }
  | .value .color text => { s with color := ColorChoice.ofName? text }
  | .value (.file _) _ => s
  | .switch .metrics => { s with metrics := true }
  | .switch .verbose => { s with verbose := true }
  | .switch .help => s
  | .switch .version => s

/-- one more use of an option is in order -/
def Admits (s : Scan) : Use → Prop
  | .value .stages _ => True
  | .value .color text => (ColorChoice.ofName? text).isSome = true ∧ s.color = none
  | .value (.file _) _ => False
  | .switch .metrics => s.metrics = false
  | .switch .verbose => s.verbose = false
  | .switch .help => False
  | .switch .version => False

theorem waiting_add (s : Scan) (use : Use) : (s.add use).waiting = s.waiting := by
  rcases use with ⟨_ | _ | _, text⟩ | ⟨_ | _ | _ | _⟩ <;> rfl

theorem place?_add (s : Scan) (use : Use) : (s.add use).place? = s.place? := by
  rcases use with ⟨_ | _ | _, text⟩ | ⟨_ | _ | _ | _⟩ <;> rfl

theorem give_add (h : (s.give param text).Admits use) (hallows : param.allows text = true) :
    s.Admits use ∧ (s.add use).give param text = (s.give param text).add use ∧
      (param.repeats = true ∨ (s.add use).has param = s.has param) := by
  cases param with
  | stages => rcases use with ⟨_ | _ | _, _⟩ | ⟨_ | _ | _ | _⟩ <;> exact ⟨h, rfl, .inl rfl⟩
  | color =>
    rcases use with ⟨_ | _ | _, _⟩ | ⟨_ | _ | _ | _⟩
    case value.color =>
      -- there is one colour only
      have hnone : ColorChoice.ofName? text = none := h.2
      have hsome : (ColorChoice.ofName? text).isSome = true := hallows
      rw [hnone] at hsome
      cases hsome
    all_goals exact ⟨h, rfl, .inr rfl⟩
  | file side =>
    cases side <;> rcases use with ⟨_ | _ | _, _⟩ | ⟨_ | _ | _ | _⟩ <;> exact ⟨h, rfl, .inr rfl⟩

/-- with one more use before, the same is done, if the use is in order in the end -/
def Carries (f : Scan → Except Stop Scan) : Prop :=
  ∀ ⦃s t use⦄, f s = .ok t → t.Admits use → s.Admits use ∧ f (s.add use) = .ok (t.add use)

namespace Carries

theorem ok : Carries .ok := by
  rintro s t use heq h
  cases heq
  exact ⟨h, rfl⟩

theorem error (stop : Stop) : Carries fun _ => .error stop := by
  intro s t use h
  cases h

theorem bind {f g : Scan → Except Stop Scan} (hf : Carries f) (hg : Carries g) :
    Carries fun s => f s >>= g := by
  intro s t use h hadmits
  cases hs : f s with
  | error stop =>
    simp only [hs] at h
    cases h
  | ok s₁ =>
    simp only [hs] at h
    obtain ⟨hadmits₁, hg₁⟩ := hg h hadmits
    obtain ⟨hadmits₀, hf₀⟩ := hf hs hadmits₁
    refine ⟨hadmits₀, ?_⟩
    simp only [hf₀]
    exact hg₁

theorem wait (waiting : Option (Param × Option String)) :
    Carries fun s => .ok { s with waiting } := by
  rintro s t use heq h
  cases heq
  rcases use with ⟨_ | _ | _, text⟩ | ⟨_ | _ | _ | _⟩ <;> exact ⟨h, rfl⟩

theorem assign (param : Param) (text : String) : Carries (Scan.assign · param text) := by
  intro s t use hassign h
  obtain ⟨hfree, hallows, rfl⟩ := assign_eq_ok_iff.mp hassign
  obtain ⟨hadmits, hgive, hhas⟩ := give_add h hallows
  refine ⟨hadmits, assign_eq_ok_iff.mpr ⟨?_, hallows, hgive.symm⟩⟩
  rcases hhas with hrepeats | hhas
  · exact .inl hrepeats
  · rwa [hhas]

theorem settle : Carries Scan.settle := by
  intro s t use hsettle h
  obtain ⟨hwaiting, rfl⟩ | ⟨param, text, hwaiting, hassign⟩ := settle_cases hsettle
  · exact ⟨h, settle_of_waiting ((waiting_add t use).trans hwaiting)⟩
  · obtain ⟨hadmits, hcarried⟩ := ((wait none).bind (assign param text)) hassign h
    refine ⟨hadmits, ?_⟩
    unfold Scan.settle
    rw [waiting_add, hwaiting]
    exact hcarried

theorem await (param : Param) (text? : Option String) : Carries (Scan.await · param text?) :=
  settle.bind (wait _)

theorem attached (param : Param) (text : String) : Carries (Scan.attached · param text) :=
  settle.bind (assign param text)

theorem switch (sw : Switch) : Carries (Scan.switch · sw) := by
  refine settle.bind ?_
  cases sw with
  | help | version => exact error _
  | metrics | verbose =>
    intro s t use heq h
    dsimp only at heq ⊢
    split at heq
    · cases heq
    · rename_i hoff
      cases heq
      rcases use with ⟨_ | _ | _, _⟩ | ⟨_ | _ | _ | _⟩ <;>
        first | exact ⟨h, if_neg hoff⟩ | cases h

theorem long (body : List Char) : Carries (Scan.long · body) := by
  unfold Scan.long
  dsimp only
  split
  · exact error _
  · exact switch _
  · exact error _
  · exact await _ none
  · exact attached _ _

theorem short (letters : List Char) : Carries (Scan.short · letters) := by
  induction letters with
  | nil => exact ok
  | cons letter rest ih =>
    unfold Scan.short
    split
    · exact error _
    · exact (switch _).bind ih
    · exact await _ none
    · exact attached _ _
    · exact attached _ _

theorem file (name : String) : Carries (Scan.file · name) := by
  intro s t use heq h
  unfold Scan.file at heq ⊢
  dsimp only at heq ⊢
  rw [place?_add]
  split at heq
  · exact await _ _ heq h
  · cases heq

theorem value (arg : String) : Carries (Scan.value · arg) := by
  intro s t use heq h
  unfold Scan.value at heq ⊢
  dsimp only at heq ⊢
  rw [waiting_add]
  split at heq
  · exact wait _ heq h
  · exact file arg heq h

theorem step (arg : String) : Carries (Scan.step · arg) := by
  unfold Scan.step
  split
  · exact long _
  · exact short _
  · exact value arg

theorem files (names : List String) : Carries (names.foldlM Scan.file ·) := by
  induction names with
  | nil => exact ok
  | cons name names ih =>
    simp only [List.foldlM_cons]
    exact (file name).bind ih

theorem scan (args : List String) : Carries (Scan.scan · args) := by
  induction args with
  | nil => exact settle
  | cons arg args ih =>
    unfold Scan.scan
    split
    · exact (files args).bind settle
    · exact (step arg).bind ih

end Carries

/-! ## uses of options and files -/

/-- a scan after one more use of an option -/
def take (s : Scan) : Use → Scan
  | .value param text => s.give param text
  | .switch .metrics => { s with metrics := true }
  | .switch .verbose => { s with verbose := true }
  | .switch .help => s
  | .switch .version => s

theorem waiting_take (s : Scan) (use : Use) : (s.take use).waiting = s.waiting := by
  rcases use with ⟨param, text⟩ | ⟨_ | _ | _ | _⟩
  · exact waiting_give s param text
  all_goals rfl

theorem scan_cons {arg : String} (h : s.step arg = .ok t) (rest : List String) :
    s.scan (arg :: rest) = t.scan rest := by
  have hne : arg ≠ "--" := by
    rintro rfl
    -- two dashes are no option
    have herror : s.step "--" = fail (.unexpectedArgument "--") := rfl
    rw [herror] at h
    cases h
  rw [scan, if_neg hne, h]
  rfl

theorem step_of_isValue {arg : String} (h : IsValue arg) (s : Scan) : s.step arg = s.value arg := by
  unfold step
  split
  · rename_i body hlist
    unfold IsValue at h
    rw [hlist] at h
    exact absurd rfl h
  · rename_i letter letters hlist
    unfold IsValue at h
    rw [hlist] at h
    exact absurd rfl h
  · rfl

/-- the use that stands first is taken -/
theorem assign_of_admits (h : s.Admits (.value param text)) :
    s.assign param text = .ok (s.take (.value param text)) := by
  refine assign_eq_ok_iff.mpr ?_
  cases param with
  | stages => exact ⟨.inl rfl, rfl, rfl⟩
  | color => exact ⟨.inr (by rw [has, h.2]; rfl), h.1, rfl⟩
  | file side => cases h

/-! ## what a use of an option writes -/

theorem mem_spellings {long? : Option String} {short? : Option Char} {option : String} :
    option ∈ spellings long? short? ↔
      (∃ name, long? = some name ∧ option = "--" ++ name) ∨
        ∃ letter, short? = some letter ∧ option = String.ofList ['-', letter] := by
  simp only [spellings, List.mem_append, List.mem_map, Option.mem_toList, eq_comm]

theorem step_of_mem_spellings {option : String} (h : option ∈ param.spellings) (s : Scan) :
    s.step option = s.await param none := by
  obtain ⟨name, hname, rfl⟩ | ⟨letter, hletter, rfl⟩ := mem_spellings.mp h
  · cases param <;> cases hname <;> rfl
  · cases param <;> cases hletter
    rfl

theorem step_of_mem_switch_spellings {sw : Switch} {option : String} (h : option ∈ sw.spellings)
    (s : Scan) : s.step option = s.switch sw := by
  obtain ⟨name, hname, rfl⟩ | ⟨letter, hletter, rfl⟩ := mem_spellings.mp h
  · cases sw <;> cases hname <;> rfl
  · -- other letters may follow, and none do
    have hnone : (s.switch sw >>= fun t => t.short []) = s.switch sw := bind_pure _
    cases sw <;> cases hletter <;> exact hnone

theorem step_attached {name : String} (h : param.long? = some name) (s : Scan) (text : String) :
    s.step ("--" ++ name ++ "=" ++ text) = s.attached param text := by
  have hlist : ("--" ++ name ++ "=" ++ text).toList =
      "--".toList ++ name.toList ++ "=".toList ++ text.toList := by
    simp only [String.toList_append]
  unfold step
  rw [hlist]
  cases param with
  | stages =>
    cases h
    show s.attached .stages (String.ofList text.toList) = _
    rw [String.ofList_toList]
  | color =>
    cases h
    show s.attached .color (String.ofList text.toList) = _
    rw [String.ofList_toList]
  | file side => cases h

/-- **A use of an option is read as what it writes**, wherever it stands. -/
theorem scan_writes {args : List String} (h : use.Writes args) (hs : s.settle = .ok t)
    (hadmits : t.Admits use) (rest : List String) :
    s.scan (args ++ rest) = (t.take use).scan rest := by
  cases h with
  | @attached param name text hname =>
    have hattached : s.step ("--" ++ name ++ "=" ++ text) = .ok (t.take (.value param text)) := by
      rw [step_attached hname]
      unfold Scan.attached
      rw [hs]
      exact assign_of_admits hadmits
    exact scan_cons hattached rest
  | @separate param option text hoption htext =>
    have hawait : s.step option = .ok { t with waiting := some (param, none) } := by
      rw [step_of_mem_spellings hoption]
      unfold Scan.await
      rw [hs]
      rfl
    have hvalue : ({ t with waiting := some (param, none) } : Scan).step text =
        .ok { t with waiting := some (param, some text) } := step_of_isValue htext _
    have hsettle := (settle_waiting (waiting_of_settle hs) param text).trans
      (assign_of_admits hadmits)
    show s.scan (option :: text :: rest) = _
    rw [scan_cons hawait, scan_cons hvalue, scan_of_settle hsettle]
  | @switch sw option hoption =>
    have hswitch : s.step option = .ok (t.take (.switch sw)) := by
      rw [step_of_mem_switch_spellings hoption]
      unfold Scan.switch
      rw [hs]
      cases sw with
      | metrics | verbose => exact if_neg (Bool.eq_false_iff.mp hadmits)
      | help | version => cases hadmits
    exact scan_cons hswitch rest

/-! ## files among the arguments -/

theorem place?_take (h : s.Admits use) : (s.take use).place? = s.place? := by
  rcases use with ⟨_ | _ | _, text⟩ | ⟨_ | _ | _ | _⟩
  case value.file => cases h
  all_goals rfl

theorem take_give (h : s.Admits use) (side : Side) (name : String) :
    (s.take use).give (.file side) name = (s.give (.file side) name).take use := by
  rcases use with ⟨_ | _ | _, text⟩ | ⟨_ | _ | _ | _⟩
  case value.file => cases h
  all_goals cases side <;> rfl

/-- a file that waits is settled in its place -/
theorem settle_file (h : s.waiting = none) {side : Side} (hside : s.place? = some side)
    {name : String} (hname : name ≠ "") :
    { s with waiting := some (.file side, some name) }.settle =
      .ok (s.give (.file side) name) := by
  have hfree : s.hasFile side = false := by
    simpa using List.find?_some hside
  have hhas : s.has (.file side) = false := (Bool.or_eq_false_iff.mp hfree).1
  rw [settle_waiting h]
  exact assign_eq_ok_iff.mpr ⟨.inr hhas, decide_eq_true hname, rfl⟩

/-- a file fills the next place -/
theorem scan_file (h : s.settle = .ok t) {name : String} (hvalue : IsValue name) (hname : name ≠ "")
    {side : Side} (hside : t.place? = some side) (rest : List String) :
    s.scan (name :: rest) = (t.give (.file side) name).scan rest := by
  have hstep : s.step name = .ok { t with waiting := some (.file side, some name) } := by
    rw [step_of_isValue hvalue, value_of_settle h, file_of_settle h]
    unfold file await
    rw [hside, settle_of_settle h]
    rfl
  rw [scan_cons hstep, scan_of_settle (settle_file (waiting_of_settle h) hside hname)]

/-- where a file is read there is a place for it -/
theorem place_of_scan_file (h : s.settle = .ok t) {name : String} (hvalue : IsValue name)
    {rest : List String} {u : Scan} (hscan : s.scan (name :: rest) = .ok u) :
    ∃ side, t.place? = some side := by
  have hne : name ≠ "--" := by
    rintro rfl
    exact hvalue rfl
  rw [scan, if_neg hne, step_of_isValue hvalue, value_of_settle h, file_of_settle h] at hscan
  unfold file at hscan
  cases hplace : t.place? with
  | some side => exact ⟨side, rfl⟩
  | none =>
    rw [hplace] at hscan
    cases hscan

/-- **An option that is in order may stand before files or after them.** -/
theorem scan_mixed {args : List String} (h : use.Writes args) {files rest : List String}
    (hfiles : ∀ f ∈ files, IsValue f ∧ f ≠ "") {u : Scan} (hs : s.settle = .ok t)
    (hscan : s.scan (files ++ rest) = .ok u) (hadmits : u.Admits use) :
    s.scan (files ++ args ++ rest) = s.scan (args ++ files ++ rest) := by
  induction files generalizing s t with
  | nil => rw [List.append_nil, List.nil_append]
  | cons name files ih =>
    obtain ⟨⟨hvalue, hname⟩, hfiles⟩ := List.forall_mem_cons.mp hfiles
    obtain ⟨side, hside⟩ := place_of_scan_file hs hvalue hscan
    have hwaiting := waiting_of_settle hs
    -- the scan with the file and the rest, and the scan with the option before both
    have hgiven : (t.give (.file side) name).settle = .ok (t.give (.file side) name) :=
      settle_of_waiting ((waiting_give t _ _).trans hwaiting)
    have htaken : (t.take use).settle = .ok (t.take use) :=
      settle_of_waiting ((waiting_take t use).trans hwaiting)
    have hrest : (t.give (.file side) name).scan (files ++ rest) = .ok u := by
      rw [← scan_file hs hvalue hname hside]
      exact hscan
    have hadmits_given : (t.give (.file side) name).Admits use :=
      (Carries.scan _ hrest hadmits).1
    have hadmits_t : t.Admits use := by
      rw [scan_of_settle hs] at hscan
      exact (Carries.scan _ hscan hadmits).1
    calc s.scan (name :: files ++ args ++ rest)
        = (t.give (.file side) name).scan (files ++ args ++ rest) :=
          scan_file hs hvalue hname hside _
      _ = ((t.give (.file side) name).take use).scan (files ++ rest) := by
          rw [ih hfiles hgiven hrest, List.append_assoc, scan_writes h hgiven hadmits_given]
      _ = (t.take use).scan (name :: (files ++ rest)) := by
          rw [scan_file htaken hvalue hname ((place?_take hadmits_t).trans hside),
            take_give hadmits_t]
      _ = s.scan (args ++ (name :: files) ++ rest) := by
          rw [List.append_assoc, scan_writes h hs hadmits_t, List.cons_append]

/-- after two dashes the arguments are files, whatever they look like -/
theorem scan_dashes {a b : String} (ha : a ≠ "") (hb : b ≠ "") :
    Scan.scan {} ["--", a, b] = .ok { left := some a, right := some b } := by
  have hfirst : ({ waiting := some (.file .left, some a) } : Scan).settle =
      .ok { left := some a } := @settle_file {} rfl .left rfl a ha
  have hsecond : ({ left := some a, waiting := some (.file .right, some b) } : Scan).settle =
      .ok { left := some a, right := some b } := @settle_file { left := some a } rfl .right rfl b hb
  have hfile : ({ waiting := some (.file .left, some a) } : Scan).file b =
      .ok { left := some a, waiting := some (.file .right, some b) } := by
    rw [file_of_settle hfirst]
    rfl
  have hfiles : [a, b].foldlM file {} =
      .ok { left := some a, waiting := some (.file .right, some b) } :=
    congrArg (· >>= pure) hfile
  rw [scan, if_pos rfl, hfiles]
  exact hsecond

/-! ## the laws -/

theorem parser_eq_ok_iff {args : List String} {m : Matches} :
    parser args = .ok m ↔ ∃ u : Scan, Scan.scan {} args = .ok u ∧ u.finish = .ok m := by
  unfold parser
  cases h : Scan.scan {} args with
  | error stop => exact iff_of_false nofun fun ⟨_, hok, _⟩ => nomatch hok
  | ok u =>
    refine ⟨fun hfinish => ⟨u, rfl, hfinish⟩, ?_⟩
    rintro ⟨_, ⟨⟩, hfinish⟩
    exact hfinish

theorem finish_add {m : Matches} (h : s.finish = .ok m) (hadmits : m.Admits use) :
    s.Admits use ∧ (s.add use).finish = .ok (m.add use) := by
  obtain ⟨left, right, stages, color, metrics, verbose, waiting⟩ := s
  cases left with
  | none => cases h
  | some a =>
    cases right with
    | none => cases h
    | some b =>
      cases h
      rcases use with ⟨_ | _ | side, text⟩ | ⟨_ | _ | _ | _⟩
      case value.stages => exact ⟨trivial, rfl⟩
      case value.color =>
        obtain ⟨hallows, hrepeats | hnot⟩ := hadmits
        · cases hrepeats
        · exact ⟨⟨hallows, Option.not_isSome_iff_eq_none.mp (Bool.eq_false_iff.mp hnot)⟩, rfl⟩
      case value.file =>
        obtain ⟨-, hrepeats | hhas⟩ := hadmits
        · cases hrepeats
        · cases hhas
      case switch.metrics => exact ⟨(Bool.not_eq_true' _).mp hadmits, rfl⟩
      case switch.verbose => exact ⟨(Bool.not_eq_true' _).mp hadmits, rfl⟩
      case switch.help => cases hadmits
      case switch.version => cases hadmits

/-- a use of an option that stands first -/
theorem parser_writes {args rest : List String} {m : Matches} (h : use.Writes args)
    (hrest : parser rest = .ok m) (hadmits : m.Admits use) :
    parser (args ++ rest) = .ok (m.add use) := by
  obtain ⟨u, hscan, hfinish⟩ := parser_eq_ok_iff.mp hrest
  obtain ⟨hadmits_u, hadd⟩ := finish_add hfinish hadmits
  obtain ⟨hadmits_nil, hcarried⟩ := Carries.scan _ hscan hadmits_u
  refine parser_eq_ok_iff.mpr ⟨u.add use, ?_, hadd⟩
  have htake : ({} : Scan).take use = ({} : Scan).add use := by
    rcases use with ⟨_ | _ | _, text⟩ | ⟨_ | _ | _ | _⟩
    case value.file => cases hadmits_nil
    all_goals rfl
  rw [scan_writes h rfl hadmits_nil, htake]
  exact hcarried

/-- **The scan has the laws of a parser.** -/
theorem parser_laws : Parser.Laws parser where
  files a b hvalue_a hvalue_b ha hb := by
    refine parser_eq_ok_iff.mpr ⟨{ left := some a, right := some b }, ?_, rfl⟩
    rw [@scan_file {} {} rfl a hvalue_a ha .left rfl, @scan_file _ _ rfl b hvalue_b hb .right rfl]
    rfl
  escape a b ha hb :=
    parser_eq_ok_iff.mpr ⟨{ left := some a, right := some b }, scan_dashes ha hb, rfl⟩
  attached param name text rest m hname hrest hadmits :=
    parser_writes (.attached hname) hrest hadmits
  separate param option text rest m hoption htext hrest hadmits :=
    parser_writes (.separate hoption htext) hrest hadmits
  switch s option rest m hoption hrest hadmits := parser_writes (.switch hoption) hrest hadmits
  mixed use args files rest m h hfiles hrest hadmits := by
    obtain ⟨u, hscan, hfinish⟩ := parser_eq_ok_iff.mp hrest
    have hadmits_u := (finish_add hfinish hadmits).1
    unfold parser
    rw [scan_mixed h hfiles rfl hscan hadmits_u]

end PipeTrace.CommandLine.Scan
