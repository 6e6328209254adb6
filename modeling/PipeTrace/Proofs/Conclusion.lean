import PipeTrace.Proofs.Lines
import PipeTrace.Proofs.Paragraphs
import PipeTrace.Proofs.Writes

/-!
# How a comparison of two files ends

`Session.Concludes` lists the ways in which a comparison can end, with the result, the exit code and
the text that is written: a file cannot be opened or cannot be read to its end, the left one being
looked at first; or both traces are loaded, and they agree or differ.  The text is written out, with
the paragraphs that must be shown of the two traces (`Session.reportText`).  There is exactly one
way for any two files, and on a sink without limit the comparison ends in that way
(`Session.compareFiles_concludes`).
-/

set_option autoImplicit false

namespace PipeTrace

/-! ## the text before the traces are compared -/

namespace Fragment

theorem renderAll_plainLine (color : Bool) (text : String) :
    renderAll color (plainLine text) = text ++ "\n" := by
  show text ++ ("\n" ++ "") = _
  rw [String.append_empty]

end Fragment

namespace Report

theorem renderAll_stages (color : Bool) (s : StageSet) :
    Fragment.renderAll color (stages s) =
      "Checking stages: " ++ ", ".intercalate s.toList ++ "\n\n" := by
  unfold stages blankLine
  rw [Fragment.renderAll_append, Fragment.renderAll_plainLine, Fragment.renderAll_plainLine,
    String.append_assoc]
  rfl

theorem renderAll_parsing (color : Bool) (name : String) :
    Fragment.renderAll color (parsing name) = "Parsing " ++ name ++ "...\n" := by
  unfold parsing
  rw [Fragment.renderAll_plainLine]
  show "Parsing " ++ name ++ "..." ++ "\n" = _
  rw [String.append_assoc]
  rfl

theorem spells_counts (color : Bool) (names : Names) (l r : Trace) :
    Fragment.Spells color (counts names l.size r.size)
      ["",
        "Found " ++ toString {id | l.contains id = true}.ncard ++ " instructions in " ++ names.left,
        "Found " ++ toString {id | r.contains id = true}.ncard ++ " instructions in " ++
          names.right] := by
  rw [← Trace.size_eq_ncard, ← Trace.size_eq_ncard]
  exact ((Fragment.Spells.plainLine "").append (.plainLine _)).append (.plainLine _)

end Report

namespace Session

def announcement (name : String) : String := "Parsing " ++ name ++ "...\n"

/-- what is written before the left file is opened -/
def leftHeading (request : Request) : String :=
  "Checking stages: " ++ ", ".intercalate request.stages.toList ++ "\n\n" ++
    announcement request.names.left

/-- what is written before the right file is opened -/
def rightHeading (request : Request) : String :=
  leftHeading request ++ announcement request.names.right

/-- the whole text of a comparison of two traces about which there are these paragraphs -/
noncomputable def reportText (request : Request) (l r : Trace) (ps : List Paragraph) (divergent : Nat)
    (first : Option InstrId) : String :=
  rightHeading request ++ linesText
    (["",
      "Found " ++ toString {id | l.contains id = true}.ncard ++ " instructions in " ++
        request.names.left,
      "Found " ++ toString {id | r.contains id = true}.ncard ++ " instructions in " ++
        request.names.right] ++
    ps.flatMap (Paragraph.lines request.color request.names) ++
    Paragraph.summaryLines request.color
      {id | l.contains id = true ∨ r.contains id = true}.ncard divergent first)

/-! ## loading one file -/

/-- the file can be read to its end, and this is its trace -/
def Loaded (openFile : Opener) (path : String) (t : Trace) : Prop :=
  ∃ content lines, openFile path = .ok content ∧ content.Holds lines ∧
    t = (Loader.replay path lines).trace

/-- the file cannot be opened, or not be read to its end; the failure and its exit code -/
inductive LoadFails (openFile : Opener) (path : String) : Failure → Nat → Prop
  | unopened {cause : Cause} (h : openFile path = .error cause) :
    LoadFails openFile path (.cannotOpen path cause) 2
  | unread {content : Content} {number : Nat} {cause : Cause} (h : openFile path = .ok content)
    (hstop : content.StopsAt number cause) :
    LoadFails openFile path (.cannotRead path number cause) 3

section
variable {openFile : Opener} {request : Request} (side : Side)

theorem loaded_or_loadFails (openFile : Opener) (path : String) :
    (∃ t, Loaded openFile path t) ∨ ∃ f code, LoadFails openFile path f code := by
  cases h : openFile path with
  | error cause => exact Or.inr ⟨_, _, .unopened h⟩
  | ok content =>
    rcases content.holds_or_stopsAt with ⟨lines, hlines⟩ | ⟨number, cause, hstop⟩
    · exact Or.inl ⟨_, content, lines, h, hlines, rfl⟩
    · exact Or.inr ⟨_, _, .unread h hstop⟩

theorem writes_load_of_holds {content : Content} {lines : List String}
    (h : content.Holds lines) (path : String) :
    Writes (load path (.ok content)) [] (.ok (Loader.replay path lines).trace) := by
  unfold load
  simp only [Trace.ended_of_holds h]
  exact (writes_logAll _).bind ((writes_recordMetrics _).bind (Writes.pure _))

theorem writes_load_of_stopsAt {content : Content} {number : Nat} {cause : Cause}
    (h : content.StopsAt number cause) (path : String) :
    Writes (load path (.ok content)) [] (.error (.cannotRead path number cause)) := by
  unfold load
  simp only [Trace.ended_of_stopsAt h]
  exact (writes_logAll _).bind (writes_throw _)

theorem writes_loadSide_of_loaded {t : Trace} (h : Loaded openFile (request.paths.of side) t) :
    Writes (loadSide openFile request side) [] (.ok t) := by
  obtain ⟨content, lines, hopen, hlines, rfl⟩ := h
  unfold loadSide
  rw [hopen]
  exact (writes_load_of_holds hlines _).bind ((writes_recordMetrics _).bind (Writes.pure _))

theorem writes_loadSide_of_loadFails {f : Failure} {code : Nat}
    (h : LoadFails openFile (request.paths.of side) f code) :
    Writes (loadSide openFile request side) [] (.error f) := by
  unfold loadSide
  cases h with
  | unopened hopen =>
    rw [hopen]
    exact (writes_throw _).bind_error
  | unread hopen hstop =>
    rw [hopen]
    exact (writes_load_of_stopsAt hstop _).bind_error

theorem writes_announceAndLoad {result : Except Failure Trace}
    (h : Writes (loadSide openFile request side) [] result) :
    Writes (announceAndLoad openFile request side)
      (Text.bytesOf (announcement (request.names.of side))) result := by
  have hemit := writes_emit request.color (Report.parsing (request.names.of side))
  rw [Report.renderAll_parsing] at hemit
  exact (hemit.bind h).cast (List.append_nil _)

end

/-! ## the whole comparison -/

/-- the ways in which a comparison can end: its result, the exit code and the text that is
written -/
inductive Concludes (openFile : Opener) (request : Request) :
    Except Failure Nat → Nat → String → Prop
  | leftFails {f : Failure} {code : Nat} (h : LoadFails openFile request.paths.left f code) :
    Concludes openFile request (.error f) code (leftHeading request)
  | rightFails {l : Trace} {f : Failure} {code : Nat}
    (hl : Loaded openFile request.paths.left l)
    (h : LoadFails openFile request.paths.right f code) :
    Concludes openFile request (.error f) code (rightHeading request)
  | agree {l r : Trace} {ps : List Paragraph} (hl : Loaded openFile request.paths.left l)
    (hr : Loaded openFile request.paths.right r)
    (h : ∀ id, ¬ l.Differs r request.stages id) (hps : l.Paragraphs r request.stages ps) :
    Concludes openFile request (.ok 0) 0 (reportText request l r ps 0 none)
  | differ {l r : Trace} {ps : List Paragraph} {first : InstrId}
    (hl : Loaded openFile request.paths.left l) (hr : Loaded openFile request.paths.right r)
    (h : l.DiffersFirst r request.stages first) (hps : l.Paragraphs r request.stages ps) :
    Concludes openFile request (.ok 1) 1
      (reportText request l r ps {id | l.Differs r request.stages id}.ncard (some first))

def exitCode : Except Failure Nat → Nat
  | .ok code => code
  | .error f => f.exitCode

section
variable {openFile : Opener} {request : Request}

theorem writes_stages (request : Request) :
    Writes (emit request.color (Report.stages request.stages))
      (Text.bytesOf ("Checking stages: " ++ ", ".intercalate request.stages.toList ++ "\n\n"))
      (.ok ()) := by
  have h := writes_emit request.color (Report.stages request.stages)
  rwa [Report.renderAll_stages] at h

theorem writes_compareFiles_of_leftFails {f : Failure} {code : Nat}
    (h : LoadFails openFile request.paths.left f code) :
    Writes (compareFiles openFile request) (Text.bytesOf (leftHeading request)) (.error f) := by
  have hload := writes_announceAndLoad .left (writes_loadSide_of_loadFails .left h)
  unfold leftHeading
  rw [Text.bytesOf_append]
  exact (writes_stages request).bind hload.bind_error

/-- if the left file fails, the right one is not looked at -/
theorem compareFiles_eq_of_leftFails {openFile' : Opener} {f : Failure} {code : Nat}
    (h : LoadFails openFile request.paths.left f code)
    (hleft : openFile' request.paths.left = openFile request.paths.left) :
    compareFiles openFile' request = compareFiles openFile request := by
  have hload : announceAndLoad openFile' request .left = announceAndLoad openFile request .left := by
    unfold announceAndLoad loadSide
    simp only [show openFile' (request.paths.of .left) = openFile (request.paths.of .left)
      from hleft]
  have hfails := writes_announceAndLoad .left (writes_loadSide_of_loadFails .left h)
  rw [compareFiles_eq, compareFiles_eq, hload]
  exact congrArg (emit request.color (Report.stages request.stages) >>= ·)
    (funext fun _ => hfails.bind_eq_bind _ _)

theorem writes_compareFiles_of_rightFails {l : Trace} {f : Failure} {code : Nat}
    (hl : Loaded openFile request.paths.left l)
    (h : LoadFails openFile request.paths.right f code) :
    Writes (compareFiles openFile request) (Text.bytesOf (rightHeading request)) (.error f) := by
  have hleft := writes_announceAndLoad .left (writes_loadSide_of_loaded .left hl)
  have hright := writes_announceAndLoad .right (writes_loadSide_of_loadFails .right h)
  unfold rightHeading leftHeading
  rw [Text.bytesOf_append, Text.bytesOf_append, List.append_assoc]
  exact (writes_stages request).bind (hleft.bind hright.bind_error)

theorem conclude_eq (task : Task) (l r : Trace) : conclude task l r = (do
    emit task.color (Report.counts task.names l.size r.size)
    recordMetrics (l.compare r task.stages).updates
    emit task.color (Report.comparison task.names (l.compare r task.stages))
    return (l.compare r task.stages).exitCode) := by
  unfold conclude
  simp only [Trace.compareRecorded_eq]

/-- the end of a comparison writes the rest of the text -/
theorem writes_conclude {l r : Trace} {ps : List Paragraph}
    (hps : l.Paragraphs r request.stages ps) :
    ∃ bytes, Writes (conclude request.toTask l r) bytes
        (.ok (l.compare r request.stages).exitCode) ∧
      Text.bytesOf (rightHeading request) ++ bytes =
        Text.bytesOf (reportText request l r ps {id | l.Differs r request.stages id}.ncard
          (l.compare r request.stages).firstDivergence) := by
  have hcounts := writes_emit request.color (Report.counts request.names l.size r.size)
  have hmetrics := writes_recordMetrics (l.compare r request.stages).updates
  have hreport := writes_emit request.color
    (Report.comparison request.names (l.compare r request.stages))
  have hcode := Writes.pure (l.compare r request.stages).exitCode
  rw [conclude_eq]
  refine ⟨_, hcounts.bind (hmetrics.bind (hreport.bind hcode)), ?_⟩
  have hbody := (Report.spells_counts request.color request.names l r).append
    (Trace.spells_comparison request.color request.names l r request.stages)
  unfold Fragment.Spells at hbody
  unfold reportText
  rw [Trace.paragraphs_iff.mp hps, List.append_assoc, Text.bytesOf_append, ← hbody,
    Fragment.renderAll_append, Text.bytesOf_append, List.nil_append, List.append_nil]

theorem writes_compareFiles_of_loaded {l r : Trace} {ps : List Paragraph}
    (hl : Loaded openFile request.paths.left l) (hr : Loaded openFile request.paths.right r)
    (hps : l.Paragraphs r request.stages ps) :
    Writes (compareFiles openFile request)
      (Text.bytesOf (reportText request l r ps {id | l.Differs r request.stages id}.ncard
        (l.compare r request.stages).firstDivergence))
      (.ok (l.compare r request.stages).exitCode) := by
  have hleft := writes_announceAndLoad .left (writes_loadSide_of_loaded .left hl)
  have hright := writes_announceAndLoad .right (writes_loadSide_of_loaded .right hr)
  obtain ⟨bytes, hrest, htext⟩ := writes_conclude hps
  rw [compareFiles_eq]
  refine Writes.cast ((writes_stages request).bind (hleft.bind (hright.bind hrest))) ?_
  rw [← htext]
  unfold rightHeading leftHeading
  simp only [Text.bytesOf_append, List.append_assoc]
  rfl

/-- a comparison that can end in some way writes the text and has the result -/
theorem Concludes.writes {result : Except Failure Nat} {code : Nat} {text : String}
    (h : Concludes openFile request result code text) :
    Writes (compareFiles openFile request) (Text.bytesOf text) result ∧
      exitCode result = code := by
  cases h with
  | leftFails h =>
    refine ⟨writes_compareFiles_of_leftFails h, ?_⟩
    cases h <;> rfl
  | rightFails hl h =>
    refine ⟨writes_compareFiles_of_rightFails hl h, ?_⟩
    cases h <;> rfl
  | @agree l r ps hl hr h hps =>
    have hnone : {id | l.Differs r request.stages id} = ∅ :=
      Set.eq_empty_iff_forall_notMem.mpr h
    have hreports := Trace.reports_compare l r request.stages
    have hwrites := writes_compareFiles_of_loaded hl hr hps
    rw [hreports.exitCode_eq_zero_iff.mpr hnone, hreports.firstDivergence_eq_none_iff.mpr hnone,
      hnone, Set.ncard_empty] at hwrites
    exact ⟨hwrites, rfl⟩
  | @differ l r ps first hl hr h hps =>
    have hsome : {id | l.Differs r request.stages id} ≠ ∅ :=
      Set.nonempty_iff_ne_empty.mp ⟨first, h.1⟩
    have hwrites := writes_compareFiles_of_loaded hl hr hps
    rw [(Trace.reports_compare l r request.stages).exitCode_eq_one_iff.mpr hsome,
      Trace.firstDivergence_eq_some_iff.mpr h] at hwrites
    exact ⟨hwrites, rfl⟩

theorem exists_concludes (openFile : Opener) (request : Request) :
    ∃ result code text, Concludes openFile request result code text := by
  rcases loaded_or_loadFails openFile request.paths.left with ⟨l, hl⟩ | ⟨f, code, h⟩
  · rcases loaded_or_loadFails openFile request.paths.right with ⟨r, hr⟩ | ⟨f, code, h⟩
    · have hps := Trace.paragraphs_iff.mpr (Eq.refl
        ((l.unionIds r).flatMap (l.paragraphsAt r request.stages)))
      cases hfirst : (l.compare r request.stages).firstDivergence with
      | some first =>
        exact ⟨_, _, _, .differ hl hr (Trace.firstDivergence_eq_some_iff.mp hfirst) hps⟩
      | none =>
        have hnone := (Trace.reports_compare l r request.stages).firstDivergence_eq_none_iff.mp hfirst
        exact ⟨_, _, _, .agree hl hr (Set.eq_empty_iff_forall_notMem.mp hnone) hps⟩
    · exact ⟨_, _, _, .rightFails hl h⟩
  · exact ⟨_, _, _, .leftFails h⟩

end

/-- **A comparison of two files ends in the one way that its files and stages allow.**  On a sink
without limit it has the result and the exit code of that way and writes its text, nothing else.
So the exit codes 0 and 1 are left for two files that were loaded, and the right file plays no part
if the left one fails. -/
theorem compareFiles_concludes (openFile : Opener) (request : Request) (held : List UInt8)
    (metrics : Metrics) (log : List LogEntry) :
    let run := (compareFiles openFile request).run { sink := { held }, metrics, log }
    (∀ result code text, Concludes openFile request result code text ↔
      run.1 = result ∧ exitCode run.1 = code ∧ run.2.sink.held = held ++ Text.bytesOf text) ∧
    (exitCode run.1 ≤ 1 →
      ∃ l r, Loaded openFile request.paths.left l ∧ Loaded openFile request.paths.right r) ∧
    (∀ f code, LoadFails openFile request.paths.left f code →
      ∀ openFile' : Opener, openFile' request.paths.left = openFile request.paths.left →
        (compareFiles openFile' request).run { sink := { held }, metrics, log } = run) := by
  intro run
  have hrun : ∀ {result code text}, Concludes openFile request result code text →
      run.1 = result ∧ exitCode run.1 = code ∧ run.2.sink.held = held ++ Text.bytesOf text := by
    intro result code text h
    obtain ⟨hwrites, hcode⟩ := h.writes
    obtain ⟨hresult, hsink⟩ := hwrites { sink := { held }, metrics, log }
    have hresult' : run.1 = result := hresult
    exact ⟨hresult', by rw [hresult', hcode], congrArg Sink.held hsink⟩
  obtain ⟨result, code, text, hends⟩ := exists_concludes openFile request
  obtain ⟨hresult, hcode, hheld⟩ := hrun hends
  refine ⟨?_, ?_, ?_⟩
  · intro result' code' text'
    refine ⟨hrun, ?_⟩
    rintro ⟨rfl, rfl, hheld'⟩
    have htext : text = text' :=
      Text.bytesOf_inj.mp (List.append_cancel_left (hheld.symm.trans hheld'))
    rw [hcode, hresult, ← htext]
    exact hends
  · intro hle
    rw [hcode] at hle
    cases hends with
    | leftFails h => cases h <;> omega
    | rightFails _ h => cases h <;> omega
    | agree hl hr _ _ => exact ⟨_, _, hl, hr⟩
    | differ hl hr _ _ => exact ⟨_, _, hl, hr⟩
  · intro f code h openFile' hleft
    rw [compareFiles_eq_of_leftFails h hleft]

end Session
end PipeTrace
