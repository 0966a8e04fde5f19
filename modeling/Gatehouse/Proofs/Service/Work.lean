import Gatehouse.Proofs.Service.Order

/-!
# How work ends

The equations of the work of an admitted request: it is late, it breaks down, it raises an error or
it returns.  Only in the last two cases does its own view of the request replace the context.
-/

namespace Gatehouse.Service

open Component (HandlerClass Method Services)
open Effect
open Response

variable {σ : Type}

def Scene.worked (c : HandlerClass σ) (method : Method σ) (s : Scene σ) : Scene σ :=
  { s with setting := { s.setting with instanceState := (workRun c method s).state } }

section

variable (c : HandlerClass σ) (services : Services) (method : Method σ) (s : Scene σ)

/-- The limit that a run has missed, if it has missed one. -/
def missedLimit? : Option Nat :=
  services.workerTimeout.filter (· ≤ (workRun c method s).milliseconds)

def workFields : List (String × String) :=
  [("component", c.fullName), ("method", s.context.method)]

variable {c services method s}

theorem execute_late {limit : Nat} (h : missedLimit? c services method s = some limit) :
    (execute c services method).run s =
      (.error (.internal "Method execution timed out" none), (s.worked c method).reported
        (.error "Method execution timed out"
          (workFields c s ++ [("timeout", durationText limit)]))) := by
  rw [missedLimit?] at h
  rw [execute_run, concludeWork, h]
  rfl

theorem execute_returned (htime : missedLimit? c services method s = none)
    {result : MethodResult} (h : (workRun c method s).ending = .returned result) :
    (execute c services method).run s =
      (.ok result, (s.worked c method).updated fun _ => (workRun c method s).context) := by
  rw [missedLimit?] at htime
  rw [execute_run, concludeWork, htime, h]
  rfl

theorem execute_raised (htime : missedLimit? c services method s = none) {e : Raised}
    (h : (workRun c method s).ending = .raised e) :
    (execute c services method).run s =
      (.error (normalizeError c.fullName (workRun c method s).context.method e).1,
        ((s.worked c method).updated fun _ => (workRun c method s).context).reported
          (normalizeError c.fullName (workRun c method s).context.method e).2) := by
  rw [missedLimit?] at htime
  rw [execute_run, concludeWork, htime, h]
  rfl

theorem execute_panicked (htime : missedLimit? c services method s = none) {reason : String}
    (h : (workRun c method s).ending = .panicked reason) :
    (execute c services method).run s =
      (.error (.internal "Method execution failed" none),
        (s.worked c method).reported (.error "Worker task failed" (workFields c s))) := by
  rw [missedLimit?] at htime
  rw [execute_run, concludeWork, htime, h]
  rfl

variable (c services method s) in
/-- The work does not touch what uses of the class share. -/
theorem state_execute :
    ((execute c services method).run s).2.setting.state = s.setting.state := by
  cases htime : missedLimit? c services method s with
  | some limit => rw [execute_late htime]; rfl
  | none =>
      cases hending : (workRun c method s).ending with
      | returned result => rw [execute_returned htime hending]; rfl
      | raised e => rw [execute_raised htime hending]; rfl
      | panicked reason => rw [execute_panicked htime hending]; rfl

end

/-! ## The whole request -/

/-- A request that fails in its work is answered with the envelope of the failure. -/
theorem Admitted.handled_of_error {a : Visit σ} {d : Admission σ} (h : Admitted a d)
    {e : ServiceError} {after : Scene σ}
    (hrun : (execute a.handlerClass a.services d.method).run (a.admitted d) = (.error e, after)) :
    a.handled = (envelopeWriter e (some after.context.requestId),
      after.recorded a.handlerClass (envelopeWriter e (some after.context.requestId)) none) := by
  have hwork : (a.work d).run (a.admitted d) = (.error e, after) := run_bind_error hrun
  rw [h.handled, hwork]
  rfl

/-- The work of a request does not touch what uses of the class share. -/
theorem state_work (a : Visit σ) (d : Admission σ) (s : Scene σ) :
    ((a.work d).run s).2.setting.state = s.setting.state := by
  have hexecute := state_execute a.handlerClass a.services d.method s
  rw [Visit.work]
  rcases hrun : (execute a.handlerClass a.services d.method).run s with ⟨e | result, s'⟩
  · rw [hrun] at hexecute
    rw [run_bind_error hrun]
    exact hexecute
  · rw [hrun] at hexecute
    rw [run_bind_ok hrun]
    exact hexecute

/-- Whatever becomes of a request, its end does not touch what uses of the class share. -/
theorem state_answer (c : HandlerClass σ)
    (outcome : Except ServiceError (Method σ × MethodResult) × Scene σ) :
    (answer c outcome).2.setting.state = outcome.2.setting.state := by
  rcases outcome with ⟨e | ⟨method, result⟩, s⟩
  · rfl
  · rw [answer]
    rcases completion method result s with ⟨error | structured, w⟩ <;> rfl

end Gatehouse.Service
