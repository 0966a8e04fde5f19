import Gatehouse.Proofs.Response.Completion
import Gatehouse.Service.Handling

/-!
# How a request is answered

The equations of the last part of handling: which response a result or an error becomes, and what
is reported and counted of it.
-/

namespace Gatehouse.Service

open Component (HandlerClass Method)
open Effect
open Response

variable {σ : Type}

/-! ## The responses -/

def envelopeWriter (e : ServiceError) (requestId : Option String) : Writer where
  codec := .json
  status := e.status
  headers := Http.Headers.empty.insert "content-type" (Text.Utf8.encode structuredType)
  body := (e.envelope requestId).renderBytes
  finished := true

theorem errorWriter_eq (e : ServiceError) (requestId : Option String) :
    errorWriter e requestId = envelopeWriter e requestId := by
  let w : Writer := { Writer.new .json with status := e.status }
  have hopen : w.finished = false := rfl
  have hstatus : (Edit.setStatus e.status).run (Writer.new .json) = (.ok (), w) := rfl
  have hfinish : (Edit.finish (some (.structured (e.envelope requestId)))).run w =
      (.ok (), { w.withEncoded (e.envelope requestId).strip.renderBytes with finished := true }) :=
    run_finish_structured hopen (e.envelope requestId)
  rw [Json.strip_of_clean _ (e.hasDiagnostics_envelope requestId)] at hfinish
  rw [errorWriter, finishError, Writer.edit, run_bind_ok (run_get (Writer.new .json)),
    if_neg (by simp [Writer.new]), run_bind_ok hstatus, hfinish]
  rfl

def completionFailure (e : TransportError) : ServiceError :=
  .internal "Failed to complete response" (some ⟨[], e.message⟩)

/-- What is sent after a completion has failed: the response, if it was finished before. -/
def salvage (e : TransportError) (requestId : String) (w : Writer) : Writer :=
  if w.finished then w else envelopeWriter (completionFailure e) (some requestId)

def close (w : Writer) : Writer := { w with finished := true }

theorem close_eq (w : Writer) :
    (if w.finished then w else (w.edit (Edit.finish none)).2) = close w := by
  cases h : w.finished with
  | true =>
      rw [if_pos rfl, close, ← h]
  | false =>
      have hrun : w.edit (Edit.finish none) = _ := run_finish_none h
      rw [if_neg (by simp), hrun]
      rfl

/-! ## What is recorded -/

def Scene.reported (s : Scene σ) (line : LogLine) : Scene σ :=
  { s with setting := { s.setting with log := s.setting.log ++ [line] } }

def requestName (context : RequestContext) : String :=
  if context.method.isEmpty then "unknown" else context.method

def outcomeLabel (w : Writer) (structured : Option Json) : String :=
  if w.status.code ≥ 400 || (classify w.status structured).startsWith "ERROR" then "error"
  else "ok"

def outcomeLine (c : HandlerClass σ) (context : RequestContext) (w : Writer)
    (structured : Option Json) : LogLine where
  level := .info
  message := s!"{context.remoteCredentials} {c.fullName} {classify w.status structured}"
  fields := [("component", c.fullName), ("method", requestName context),
    ("status", toString w.status.code)]
  timed := true

def Scene.recorded (c : HandlerClass σ) (s : Scene σ) (w : Writer) (structured : Option Json) :
    Scene σ :=
  { s.reported (outcomeLine c s.context w structured) with
    counts := s.counts ++ [⟨c.fullName, requestName s.context, outcomeLabel w structured⟩] }

/-! ## The equations -/

variable (c : HandlerClass σ)

theorem report_run (line : LogLine) (s : Scene σ) :
    (report line : StateM (Scene σ) Unit).run s = pure ((), s.reported line) := rfl

theorem recordOutcome_run (w : Writer) (structured : Option Json) (s : Scene σ) :
    (recordOutcome c w structured).run s = pure ((), s.recorded c w structured) := rfl

theorem respondError_run (e : ServiceError) (s : Scene σ) :
    (respondError c e).run s =
      (envelopeWriter e (some s.context.requestId),
        s.recorded c (envelopeWriter e (some s.context.requestId)) none) := by
  rw [← errorWriter_eq]
  rfl

def completionLine (context : RequestContext) (e : TransportError) : LogLine :=
  .error "Failed to complete response" [("component", c.fullName), ("method", context.method),
    ("error", e.message)]

/-- How a completion ends a request. -/
def conclude (s : Scene σ) : Except TransportError (Option Json) × Writer → Writer × Scene σ
  | (.ok structured, w) => (close w, s.recorded c (close w) structured)
  | (.error e, w) =>
    let response := salvage e s.context.requestId w
    (response, (s.reported (completionLine c s.context e)).recorded c response none)

def completion (method : Method σ) (result : MethodResult) (s : Scene σ) :
    Except TransportError (Option Json) × Writer :=
  (Writer.new).edit (complete method s.setting.instanceState s.context result)

theorem respond_run (method : Method σ) (result : MethodResult) (s : Scene σ) :
    (respond c method result).run s = conclude c s (completion method result s) := by
  rw [respond, StateT.run_bind, StateT.run_get, pure_bind]
  dsimp only
  rcases hcompletion : completion method result s with ⟨error | structured, w⟩
  · rw [completion] at hcompletion
    rw [hcompletion]
    dsimp only
    rw [StateT.run_bind, report_run, pure_bind, StateT.run_bind, recordOutcome_run, pure_bind,
      StateT.run_pure, errorWriter_eq]
    rfl
  · rw [completion] at hcompletion
    rw [hcompletion]
    dsimp only
    rw [StateT.run_bind, recordOutcome_run, pure_bind, StateT.run_pure, close_eq]
    rfl

/-! ## The whole of handling -/

variable (services : Component.Services) (now : Nat) (request : Request)

def serve : Stage σ (Method σ × MethodResult) := do
  let method ← prepare c services now request
  return (method, ← execute c services method)

/-- How a request ends. -/
def answer : Except ServiceError (Method σ × MethodResult) × Scene σ → Writer × Scene σ
  | (.ok (method, result), s) => conclude c s (completion method result s)
  | (.error e, s) =>
    let response := envelopeWriter e (some s.context.requestId)
    (response, s.recorded c response none)

theorem handle_run (s : Scene σ) :
    (handle c services now request).run s = answer c ((serve c services now request).run s) := by
  rw [handle, StateT.run_bind]
  rcases hserve : (serve c services now request).run s with ⟨e | ⟨method, result⟩, s'⟩
  · have hrun : StateT.run (ExceptT.run (serve c services now request)) s =
        pure (.error e, s') := hserve
    rw [serve] at hrun
    rw [hrun, pure_bind]
    exact respondError_run c e s'
  · have hrun : StateT.run (ExceptT.run (serve c services now request)) s =
        pure (.ok (method, result), s') := hserve
    rw [serve] at hrun
    rw [hrun, pure_bind]
    exact respond_run c method result s'

end Gatehouse.Service
