import PipeTrace.Program
import PipeTrace.Proofs.Calls
import PipeTrace.Proofs.FullSink

/-!
# The outcome of a run

What the program leaves behind for any arguments, and which files it opens for it.

* `Program.Ends`            the ways in which a run can end, with the exit code and what is written;
* `Program.noting`          a system that notes the files that are opened;
* `Session.Opens`           a step on that system does the same as the step that knows the answers,
                            and opens these files.

A run ends in exactly one of the ways (`Program.run_ends`).  A command line that asks for no
comparison opens no file, and the right file is opened only after the left one was loaded
(`Program.runOn_noting`).
-/

set_option autoImplicit false

namespace PipeTrace

theorem Text.ofCutBytes_bytesOf (s : String) : ofCutBytes (bytesOf s) = s := by
  unfold ofCutBytes
  rw [ofBytes?_bytesOf]

namespace Program

open CommandLine

variable (env : Environment) (args : List String)

/-! ## how a run ends -/

/-- the comparison of two files that a command line asks for -/
def asked (options : Options) (stages : StageSet) : Request where
  paths := options.files
  stages := stages
  color := options.color.enabled?.getD env.terminal
  seconds := env.seconds

/-- what is said if a comparison fails -/
def failureShown : Except Failure Nat → String
  | .ok _ => ""
  | .error (.cannotOpen path cause) => "✗ Error: " ++ s!"cannot open {path}: {cause.text}" ++ "\n"
  | .error (.cannotRead path line cause) =>
    "✗ Unexpected error: " ++ s!"read error in {path} at line {line}: {cause.text}" ++
      "\n  caused by: " ++ cause.text ++ "\n"
  | .error (.cannotWrite cause) =>
    "✗ Unexpected error: " ++ s!"failed to write report: {cause.text}" ++
      "\n  caused by: " ++ cause.text ++ "\n"

/-- what is said of the metrics of a comparison, if they were asked for -/
def metricsShown (options : Options) (stages : StageSet) : String :=
  if options.metrics then
    (Metrics.Call.recordAll (Session.calls env.openFile (asked env options stages))).summary
  else ""

/-- the ways in which a run can end -/
inductive Ends : Outcome → Prop
  | help (h : parseWith env.parser args = .error .help) : Ends { code := 0, stdout := helpText }
  | version (h : parseWith env.parser args = .error .version) :
    Ends { code := 0, stdout := versionText }
  | misused {e : UsageError} (h : parseWith env.parser args = .error (.usage e)) :
    Ends { code := 2, stderr := "error: " ++ e.message ++ "\n" }
  | noStages {options : Options} (h : parseWith env.parser args = .ok options)
    (hs : StageSet.ofArgs? options.stages = none) :
    Ends { code := 2, stderr := "error: --stages must name at least one stage\n" }
  | compared {options : Options} {stages : StageSet} {result : Except Failure Nat} {code : Nat}
    {text : String} (h : parseWith env.parser args = .ok options)
    (hs : StageSet.ofArgs? options.stages = some stages)
    (hc : Session.Concludes env.openFile (asked env options stages) result code text) :
    Ends
      { code
        stdout := text
        stderr := logText options.verbose
            ((Session.compareFiles env.openFile (asked env options stages)).run {}).2.log ++
          failureShown result ++ metricsShown env options stages }

section
variable {env : Environment} {args : List String} {options : Options} {stages : StageSet}

theorem run_of_stopped {stop : Stop} (h : parseWith env.parser args = .error stop) :
    run env args = stopped stop := by
  unfold run runOn
  rw [h]
  rfl

theorem run_of_noStages (h : parseWith env.parser args = .ok options)
    (hs : StageSet.ofArgs? options.stages = none) : run env args = refuse .noStages := by
  unfold run runOn
  rw [h]
  unfold Options.stageSet
  simp only [hs]
  rfl

theorem run_of_stageSet (h : parseWith env.parser args = .ok options)
    (hs : StageSet.ofArgs? options.stages = some stages) :
    run env args = concluded options
      ((Session.compareFiles env.openFile (asked env options stages)).run {}) := by
  unfold run runOn
  rw [h]
  unfold Options.stageSet
  simp only [hs]
  rfl

/-- what a comparison leaves behind on the standard output and the standard error -/
theorem concluded_of_concludes {result : Except Failure Nat} {code : Nat} {text : String}
    (hc : Session.Concludes env.openFile (asked env options stages) result code text) :
    let run := (Session.compareFiles env.openFile (asked env options stages)).run {}
    concluded options run =
      { code
        stdout := text
        stderr := logText options.verbose run.2.log ++ failureShown result ++
          metricsShown env options stages } := by
  intro run
  obtain ⟨hwrites, hcode⟩ := hc.writes
  obtain ⟨hheld, hresult⟩ := hwrites.run_unlimited {} []
  have hmetrics : run.2.metrics =
      Metrics.Call.recordAll (Session.calls env.openFile (asked env options stages)) :=
    Session.metrics_compareFiles _ _ {} []
  have htext : run.2.sink.text = text := by
    unfold Sink.text
    rw [show run.2.sink.held = Text.bytesOf text from hheld, Text.ofCutBytes_bytesOf]
  rw [show run = (result, run.2) from Prod.ext hresult rfl]
  unfold concluded metricsShown
  simp only [htext, hmetrics]
  rcases result with (_ | _ | _) | _ <;> cases hcode <;> rfl

end

theorem ends_run : Ends env args (run env args) := by
  cases h : parseWith env.parser args with
  | error stop =>
    rw [run_of_stopped h]
    cases stop with
    | help => exact .help h
    | version => exact .version h
    | usage e => exact .misused h
  | ok options =>
    cases hs : StageSet.ofArgs? options.stages with
    | none =>
      rw [run_of_noStages h hs]
      exact .noStages h hs
    | some stages =>
      obtain ⟨result, code, text, hc⟩ :=
        Session.exists_concludes env.openFile (asked env options stages)
      rw [run_of_stageSet h hs, concluded_of_concludes hc]
      exact .compared h hs hc

/-- **A run ends in the one way that its arguments and files allow.**  The exit code is 0 if the two
logs agree or only the help or the version was asked for, 1 if they differ, 2 if the command line
cannot be understood or a file not be opened, and 3 if a file cannot be read. -/
theorem run_ends (outcome : Outcome) : Ends env args outcome ↔ run env args = outcome := by
  constructor
  · intro hends
    cases hends with
    | help h | version h | misused h => exact run_of_stopped h
    | noStages h hs => exact run_of_noStages h hs
    | compared h hs hc => rw [run_of_stageSet h hs, concluded_of_concludes hc]
  · rintro rfl
    exact ends_run env args

end Program

/-! ## the files that are opened -/

/-- a system that notes the files that are opened, in order -/
abbrev Noting := StateM (List String)

namespace Session

/-- a system with known answers that notes the files that are opened -/
def noting (openFile : Opener) (seconds : Side → Float) : Host Noting where
  openFile path := modifyGet fun paths => (openFile path, paths ++ [path])
  seconds side := pure (seconds side)

variable {α β : Type}

/-- on a sink without limit the step does what the other does, and opens these files -/
def Opens (x : StepOn Noting α) (y : Step α) (paths : List String) : Prop :=
  ∀ (s : Session) (before : List String), s.sink.room = none →
    (x.run s).run before = (y.run s, before ++ paths)

theorem Writes.run_of_room {y : Step α} {bytes : List UInt8} {result : Except Failure α}
    (h : Writes y bytes result) {s : Session} (hroom : s.sink.room = none) :
    ∃ s' : Session, y.run s = (result, s') ∧ s'.sink.room = none := by
  obtain ⟨hresult, hsink⟩ := h s
  rw [if_pos (Sink.fits_of_room hroom bytes)] at hresult
  refine ⟨(y.run s).2, Prod.ext hresult rfl, ?_⟩
  rw [hsink]
  exact Sink.room_put_of_room hroom bytes

namespace Opens

variable {x : StepOn Noting α} {y : Step α} {f : α → StepOn Noting β} {g : α → Step β}
  {paths paths' : List String} {bytes : List UInt8}

theorem cast (h : Opens x y paths) (heq : paths = paths') : Opens x y paths' := heq ▸ h

theorem alone (y : Step α) : Opens (Session.alone y) y [] := by
  intro s before _
  rw [List.append_nil]
  rfl

theorem pure (a : α) : Opens (Pure.pure a) (Pure.pure a) [] := alone (Pure.pure a)

theorem bind {a : α} (hx : Opens x y paths) (hy : Writes y bytes (.ok a))
    (hf : Opens (f a) (g a) paths') : Opens (x >>= f) (y >>= g) (paths ++ paths') := by
  intro s before hroom
  obtain ⟨s', hrun, hroom'⟩ := hy.run_of_room hroom
  have hfirst := hx s before hroom
  show (ExceptT.bindCont f ((x.run s).run before).1.1 ((x.run s).run before).1.2).run
    ((x.run s).run before).2 = _
  rw [run_bind_ok hrun, hfirst, hrun, ← List.append_assoc]
  exact hf s' (before ++ paths) hroom'

theorem bind_error {e : Failure} (hx : Opens x y paths) (hy : Writes y bytes (.error e)) :
    Opens (x >>= f) (y >>= g) paths := by
  intro s before hroom
  obtain ⟨s', hrun, -⟩ := hy.run_of_room hroom
  have hfirst := hx s before hroom
  show (ExceptT.bindCont f ((x.run s).run before).1.1 ((x.run s).run before).1.2).run
    ((x.run s).run before).2 = _
  rw [run_bind_error hrun, hfirst, hrun]
  rfl

end Opens

section
variable {openFile : Opener} {request : Request} {side : Side}

theorem exists_writes_load (path : String) (opened : Except Cause Content) :
    ∃ result, Writes (load path opened) [] result := by
  cases opened with
  | error cause => exact ⟨_, writes_throw _⟩
  | ok content =>
    rcases content.holds_or_stopsAt with ⟨lines, hlines⟩ | ⟨number, cause, hstop⟩
    · exact ⟨_, writes_load_of_holds hlines path⟩
    · exact ⟨_, writes_load_of_stopsAt hstop path⟩

theorem opens_loadSide (openFile : Opener) (request : Request) (side : Side) :
    Opens (loadSideOn (noting openFile request.seconds) request.paths side)
      (loadSide openFile request side) [request.paths.of side] := by
  have hrest : Opens
      (Session.alone (load (request.paths.of side) (openFile (request.paths.of side))) >>=
        fun t => Session.alone (recordMetrics (t.loadUpdates side.name (request.seconds side))) >>=
          fun _ => pure t)
      (loadSide openFile request side) [] := by
    obtain ⟨result, hload⟩ :=
      exists_writes_load (request.paths.of side) (openFile (request.paths.of side))
    cases result with
    | error f => exact (Opens.alone _).bind_error hload
    | ok t =>
      exact (Opens.alone _).bind hload
        ((Opens.alone _).bind (writes_recordMetrics _) (Opens.pure t))
  intro s before hroom
  -- the file is noted before anything else is done
  have hrun := hrest s (before ++ [request.paths.of side]) hroom
  rw [List.append_nil] at hrun
  exact hrun

theorem opens_announceAndLoad (openFile : Opener) (request : Request) (side : Side) :
    Opens (announceOn (noting openFile request.seconds) request.toTask side)
      (announceAndLoad openFile request side) [request.paths.of side] :=
  (Opens.alone _).bind (writes_emit _ _) (opens_loadSide openFile request side)

/-- if the left file fails, the right one is not opened -/
theorem opens_compare_of_leftFails {f : Failure} {code : Nat}
    (h : LoadFails openFile request.paths.left f code) :
    Opens (compareOn (noting openFile request.seconds) request.toTask)
      (compareFiles openFile request) [request.paths.left] := by
  have hleft := writes_announceAndLoad .left (writes_loadSide_of_loadFails .left h)
  exact (Opens.alone _).bind (writes_emit _ _)
    ((opens_announceAndLoad openFile request .left).bind_error hleft)

theorem opens_compare_of_loaded {l : Trace} (hl : Loaded openFile request.paths.left l) :
    Opens (compareOn (noting openFile request.seconds) request.toTask)
      (compareFiles openFile request) [request.paths.left, request.paths.right] := by
  have hleft := writes_announceAndLoad .left (writes_loadSide_of_loaded .left hl)
  have hopens_left := opens_announceAndLoad openFile request .left
  have hopens_right := opens_announceAndLoad openFile request .right
  rcases loaded_or_loadFails openFile request.paths.right with ⟨r, hr⟩ | ⟨f, code, h⟩
  · have hright := writes_announceAndLoad .right (writes_loadSide_of_loaded .right hr)
    exact (Opens.alone _).bind (writes_emit _ _)
      (hopens_left.bind hleft (hopens_right.bind hright (Opens.alone _)))
  · have hright := writes_announceAndLoad .right (writes_loadSide_of_loadFails .right h)
    exact (Opens.alone _).bind (writes_emit _ _)
      (hopens_left.bind hleft (hopens_right.bind_error hright))

end

end Session

namespace Program

open CommandLine

variable (env : Environment) (args : List String)

/-- the files that are opened for a command line -/
inductive Opened : List String → Prop
  | nothing (h : ∀ options, parseWith env.parser args = .ok options →
      StageSet.ofArgs? options.stages = none) : Opened []
  | left {options : Options} {stages : StageSet} {f : Failure} {code : Nat}
    (h : parseWith env.parser args = .ok options)
    (hs : StageSet.ofArgs? options.stages = some stages)
    (hl : Session.LoadFails env.openFile options.files.left f code) : Opened [options.files.left]
  | both {options : Options} {stages : StageSet} {l : Trace}
    (h : parseWith env.parser args = .ok options)
    (hs : StageSet.ofArgs? options.stages = some stages)
    (hl : Session.Loaded env.openFile options.files.left l) :
    Opened [options.files.left, options.files.right]

variable {env : Environment} {args : List String}

/-- where no comparison is asked for the system is not asked for anything -/
theorem runOn_eq_pure {m : Type → Type} [Monad m] (host : Host m)
    (h : ∀ options, parseWith env.parser args = .ok options →
      StageSet.ofArgs? options.stages = none) :
    runOn host env.terminal env.parser args = pure (run env args) := by
  cases hparse : parseWith env.parser args with
  | error stop =>
    rw [run_of_stopped hparse]
    unfold runOn
    rw [hparse]
  | ok options =>
    rw [run_of_noStages hparse (h options hparse)]
    unfold runOn Options.stageSet
    rw [hparse]
    simp only [h options hparse]

theorem runOn_of_opens {options : Options} {stages : StageSet} {paths : List String}
    (h : parseWith env.parser args = .ok options)
    (hs : StageSet.ofArgs? options.stages = some stages)
    (hopens : Session.Opens
      (Session.compareOn (Session.noting env.openFile env.seconds) (asked env options stages).toTask)
      (Session.compareFiles env.openFile (asked env options stages)) paths) :
    (runOn (Session.noting env.openFile env.seconds) env.terminal env.parser args).run [] =
      (run env args, paths) := by
  have hrun := hopens {} [] rfl
  rw [run_of_stageSet h hs]
  unfold runOn Options.stageSet
  rw [h]
  simp only [hs]
  exact congrArg (fun ended => (concluded options ended.1, ended.2)) hrun

theorem exists_opened (env : Environment) (args : List String) :
    ∃ paths, Opened env args paths := by
  by_cases h : ∀ options, parseWith env.parser args = .ok options →
      StageSet.ofArgs? options.stages = none
  · exact ⟨_, .nothing h⟩
  · push Not at h
    obtain ⟨options, hparse, hsome⟩ := h
    obtain ⟨stages, hs⟩ := Option.ne_none_iff_exists'.mp hsome
    rcases Session.loaded_or_loadFails env.openFile options.files.left with ⟨l, hl⟩ | ⟨f, code, hl⟩
    · exact ⟨_, .both hparse hs hl⟩
    · exact ⟨_, .left hparse hs hl⟩

/-- **A run opens the files that it needs, in order, and no other.**  On a system that notes the
files that are opened a run has the same outcome; it opens nothing if no comparison is asked for,
and the right file only after the left one was loaded. -/
theorem runOn_noting (env : Environment) (args : List String) :
    let noted :=
      (runOn (Session.noting env.openFile env.seconds) env.terminal env.parser args).run []
    noted.1 = run env args ∧ ∀ paths, Opened env args paths ↔ noted.2 = paths := by
  intro noted
  have hnoted : ∀ {paths}, Opened env args paths → noted = (run env args, paths) := by
    intro paths h
    cases h with
    | nothing h => exact congrArg (fun x : Noting Outcome => x.run []) (runOn_eq_pure _ h)
    | left h hs hl => exact runOn_of_opens h hs (Session.opens_compare_of_leftFails hl)
    | both h hs hl => exact runOn_of_opens h hs (Session.opens_compare_of_loaded hl)
  obtain ⟨paths, hopened⟩ := exists_opened env args
  have hpaths := hnoted hopened
  refine ⟨congrArg Prod.fst hpaths, fun paths' => ⟨fun h => congrArg Prod.snd (hnoted h), ?_⟩⟩
  rintro rfl
  rw [hpaths]
  exact hopened

end Program

end PipeTrace
