import PipeTrace.Session

/-!
# What the steps of a session write

`Session.Writes x bytes result` says all that a step `x` does to any sink.  If there is room for the
bytes, they are written and the step ends with the result; if not, the sink takes as many of them as
fit and the step fails for that reason.

Steps that are taken one after the other write one after the other (`Writes.bind`), and nothing is
written after a failure (`Writes.bind_error`).

If the answers of the system are known, a comparison is a row of such steps
(`Session.compareFiles_eq`).
-/

set_option autoImplicit false

namespace PipeTrace

namespace Sink

theorem fits_nil (s : Sink) : s.fits [] = true := by
  obtain ⟨held, _ | n⟩ := s
  · rfl
  · exact decide_eq_true (Nat.zero_le n)

theorem fits_of_room {s : Sink} (h : s.room = none) (bytes : List UInt8) : s.fits bytes = true := by
  unfold fits
  rw [h]

/-- a sink without limit stays one -/
theorem room_put_of_room {s : Sink} (h : s.room = none) (bytes : List UInt8) :
    (s.put bytes).room = none := by
  unfold put
  rw [h]

/-- a sink that has lost a byte takes no more -/
theorem put_of_not_fits {s : Sink} {as : List UInt8} (h : s.fits as = false) (bs : List UInt8) :
    (s.put as).put bs = s.put as := by
  obtain ⟨held, _ | n⟩ := s
  · cases h
  · have hn : ¬ as.length ≤ n := of_decide_eq_false h
    have hroom : n - as.length = 0 := by omega
    simp only [put, hroom, List.take_zero, List.append_nil, Nat.zero_sub]

end Sink

namespace Session

variable {α β : Type}

/-- on every sink the step writes the bytes and ends with the result, unless the sink is full -/
def Writes (x : Step α) (bytes : List UInt8) (result : Except Failure α) : Prop :=
  ∀ s : Session,
    (x.run s).1 = (if s.sink.fits bytes then result else .error (.cannotWrite .sinkFull)) ∧
    (x.run s).2.sink = s.sink.put bytes

theorem run_bind_ok {x : Step α} {s s' : Session} {a : α} (h : x.run s = (.ok a, s'))
    (f : α → Step β) : (x >>= f).run s = (f a).run s' := by
  show ExceptT.bindCont f (x.run s).1 (x.run s).2 = _
  rw [h]
  rfl

theorem run_bind_error {x : Step α} {s s' : Session} {e : Failure}
    (h : x.run s = (.error e, s')) (f : α → Step β) : (x >>= f).run s = (.error e, s') := by
  show ExceptT.bindCont f (x.run s).1 (x.run s).2 = _
  rw [h]
  rfl

namespace Writes

theorem cast {x : Step α} {as bs : List UInt8} {result : Except Failure α}
    (h : Writes x as result) (heq : as = bs) : Writes x bs result := heq ▸ h

/-- a step that leaves the sink alone -/
theorem of_sink_eq {x : Step α} {result : Except Failure α}
    (h : ∀ s, (x.run s).1 = result ∧ (x.run s).2.sink = s.sink) : Writes x [] result := by
  intro s
  rw [Sink.fits_nil, if_pos rfl, Sink.put_nil]
  exact h s

theorem pure (a : α) : Writes (Pure.pure a : Step α) [] (.ok a) :=
  of_sink_eq fun _ => ⟨rfl, rfl⟩

theorem bind {x : Step α} {f : α → Step β} {as bs : List UInt8} {a : α}
    {result : Except Failure β} (hx : Writes x as (.ok a)) (hf : Writes (f a) bs result) :
    Writes (x >>= f) (as ++ bs) result := by
  intro s
  obtain ⟨hresult, hsink⟩ := hx s
  rw [Sink.fits_append, Sink.put_append]
  cases hfits : s.sink.fits as with
  | true =>
    rw [if_pos hfits] at hresult
    rw [run_bind_ok (Prod.ext hresult rfl), Bool.true_and, ← hsink]
    exact hf _
  | false =>
    rw [if_neg (by rw [hfits]; decide)] at hresult
    rw [run_bind_error (Prod.ext hresult rfl), Sink.put_of_not_fits hfits]
    exact ⟨rfl, hsink⟩

theorem bind_error {x : Step α} {f : α → Step β} {as : List UInt8} {e : Failure}
    (hx : Writes x as (.error e)) : Writes (x >>= f) as (.error e) := by
  intro s
  obtain ⟨hresult, hsink⟩ := hx s
  by_cases hfits : s.sink.fits as = true
  · rw [if_pos hfits] at hresult ⊢
    rw [run_bind_error (Prod.ext hresult rfl)]
    exact ⟨rfl, hsink⟩
  · rw [if_neg hfits] at hresult ⊢
    rw [run_bind_error (Prod.ext hresult rfl)]
    exact ⟨rfl, hsink⟩

/-- what would come after a failure makes no difference -/
theorem bind_eq_bind {x : Step α} {as : List UInt8} {e : Failure} (hx : Writes x as (.error e))
    (f g : α → Step β) : x >>= f = x >>= g := by
  refine funext fun s => ?_
  show (x >>= f).run s = (x >>= g).run s
  obtain ⟨hresult, -⟩ := hx s
  -- a full sink is another failure
  obtain ⟨e', herror⟩ : ∃ e', (x.run s).1 = .error e' := by
    split at hresult
    · exact ⟨_, hresult⟩
    · exact ⟨_, hresult⟩
  rw [run_bind_error (Prod.ext herror rfl), run_bind_error (Prod.ext herror rfl)]

end Writes

/-! ## the steps of a comparison -/

def write (bytes : List UInt8) : Step Unit := do
  let s ← get
  set { s with sink := s.sink.put bytes }
  unless s.sink.fits bytes do throw (.cannotWrite .sinkFull)

theorem run_write (bytes : List UInt8) (s : Session) :
    (write bytes).run s =
      (if s.sink.fits bytes then .ok () else .error (.cannotWrite .sinkFull),
      { s with sink := s.sink.put bytes }) := by
  show ((unless _ do throw _ : Step Unit).run _) = _
  cases s.sink.fits bytes <;> rfl

theorem emit_eq_write (color : Bool) (fs : List Fragment) :
    emit color fs = write (Text.bytesOf (Fragment.renderAll color fs)) := rfl

theorem writes_emit (color : Bool) (fs : List Fragment) :
    Writes (emit color fs) (Text.bytesOf (Fragment.renderAll color fs)) (.ok ()) := by
  intro s
  rw [emit_eq_write, run_write]
  exact ⟨rfl, rfl⟩

theorem writes_recordMetrics (updates : List Metrics.Update) :
    Writes (recordMetrics updates) [] (.ok ()) :=
  Writes.of_sink_eq fun _ => ⟨rfl, rfl⟩

theorem writes_throw (f : Failure) : Writes (throw f : Step α) [] (.error f) :=
  Writes.of_sink_eq fun _ => ⟨rfl, rfl⟩

theorem writes_logAll (entries : List LogEntry) : Writes (logAll entries) [] (.ok ()) :=
  Writes.of_sink_eq fun _ => ⟨rfl, rfl⟩

/-! ## a system whose answers are known -/

section
variable (openFile : Opener) (request : Request)

def loadSide (side : Side) : Step Trace := do
  let trace ← load (request.paths.of side) (openFile (request.paths.of side))
  recordMetrics (trace.loadUpdates side.name (request.seconds side))
  return trace

def announceAndLoad (side : Side) : Step Trace := do
  emit request.color (Report.parsing (request.names.of side))
  loadSide openFile request side

theorem compareFiles_eq : compareFiles openFile request = (do
    emit request.color (Report.stages request.stages)
    let left ← announceAndLoad openFile request .left
    let right ← announceAndLoad openFile request .right
    conclude request.toTask left right) := rfl

end

end Session

end PipeTrace
