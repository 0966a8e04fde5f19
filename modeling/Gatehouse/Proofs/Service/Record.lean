import Gatehouse.Proofs.Service.Stages

/-!
# What stages report

Stages report what they come across, but none of them reports the end of a request or counts one.
The work does neither, and what it makes of the instance is what its own run has left.
-/

namespace Gatehouse.Service

open Component (HandlerClass Method Run Runtime Services)
open Effect
open Response

variable {σ : Type}

/-- A stage reports what it has to, but neither the end of a request nor a count. -/
structure StageStep (s s' : Scene σ) : Prop where
  log : Log.Continues s.setting.log s'.setting.log
  counts : s'.counts = s.counts

instance : IsPreorder (Scene σ) StageStep where
  refl s := ⟨refl_of Log.Continues s.setting.log, rfl⟩
  trans _ _ _ h h' := ⟨trans_of Log.Continues h.log h'.log, h'.counts.trans h.counts⟩

/-- A stage that changes neither log nor counts. -/
theorem StageStep.of_eq {s s' : Scene σ} (hlog : s'.setting.log = s.setting.log)
    (hcounts : s'.counts = s.counts) : StageStep s s' :=
  ⟨hlog ▸ refl_of Log.Continues s.setting.log, hcounts⟩

section

variable (c : HandlerClass σ) (services : Services)

theorem leaves_report {line : LogLine} (h : line.timed = false) :
    Leaves StageStep (report line : Stage σ Unit) :=
  Leaves.modify fun _ => ⟨.append_line h, rfl⟩

theorem leaves_updateState (change : Component.ClassState σ → Component.ClassState σ) :
    Leaves StageStep (updateState change : Stage σ Unit) :=
  Leaves.modify fun _ => .of_eq rfl rfl

theorem leaves_updateContext (change : RequestContext → RequestContext) :
    Leaves StageStep (updateContext change : Stage σ Unit) :=
  Leaves.modify fun _ => .of_eq rfl rfl

theorem leaves_runtimeFor (location : String) :
    Leaves StageStep (runtimeFor c services location) := by
  intro s
  have hlog := c.continues_ensure services location s.setting
  rw [runtimeFor_run]
  generalize (c.ensure services location).run s.setting = outcome at hlog ⊢
  rcases outcome with ⟨(e | reason) | runtime, setting⟩
  · exact ⟨hlog, rfl⟩
  · exact ⟨trans_of Log.Continues hlog (.append_line rfl), rfl⟩
  · exact ⟨hlog, rfl⟩

theorem leaves_resolveMethod (runtime : Runtime σ) (name : String) :
    Leaves StageStep (resolveMethod runtime name) := by
  rw [resolveMethod]
  apply Leaves.bind (leaves_updateContext _)
  intro _
  cases runtime.methods.resolve name with
  | some method => exact .bind .get fun _ => .bind (leaves_updateState _) fun _ => .pure method
  | none => exact .bind (leaves_report rfl) fun _ => .throw _

theorem leaves_authenticate (runtime : Runtime σ) (grantContext : GrantContext) :
    Leaves StageStep (authenticate services runtime grantContext) := by
  rw [authenticate]
  cases services.grants.resolve runtime.grants grantContext with
  | ok credentials => exact leaves_updateContext _
  | error failure => exact .bind .get fun _ => .bind (leaves_report rfl) fun _ => .throw _

/-- The gate reports nothing but refusals. -/
theorem untimed_check (gate : Policy.Gate) (method path : String) (required : Option (List String))
    (record : Credential) : ∀ line ∈ (gate.check method path required record).2.2,
      line.timed = false := by
  rw [Policy.Gate.check]
  rcases gate.engine.authorize method required record with ⟨allowed, enriched⟩
  cases allowed with
  | true => exact fun _ h => absurd h List.not_mem_nil
  | false =>
      intro line h
      obtain rfl := List.mem_singleton.mp h
      rfl

theorem leaves_authorize (runtime : Runtime σ) (method : Method σ) :
    Leaves StageStep (authorize runtime method) := by
  rw [authorize]
  apply Leaves.bind (R := StageStep) Leaves.get
  intro s
  have hlines := untimed_check runtime.gate s.context.method s.context.path
    (Policy.Gate.requiredProperties method.required runtime.defaultAuthorization)
    s.context.credentials
  apply Leaves.bind (Leaves.forM fun line hline => leaves_report (hlines line hline))
  intro _
  apply Leaves.bind (leaves_updateContext _)
  intro _
  apply Leaves.bind (R := StageStep) (Leaves.liftM _)
  intro _
  exact leaves_updateContext _

theorem leaves_prepare (now : Nat) (request : Request) :
    Leaves StageStep (prepare c services now request) := by
  rw [prepare]
  apply Leaves.bind (leaves_runtimeFor c services request.path)
  intro runtime
  apply Leaves.bind (R := StageStep) (Leaves.liftM _)
  intro arguments
  apply Leaves.bind (R := StageStep) (Leaves.liftM _)
  intro name
  apply Leaves.bind (leaves_resolveMethod runtime name)
  intro method
  apply Leaves.bind (leaves_authenticate services runtime _)
  intro _
  apply Leaves.bind (leaves_authorize runtime method)
  intro _
  apply Leaves.bind (R := StageStep) (Leaves.liftM _)
  intro _
  exact .bind (leaves_updateContext _) fun _ => .pure method

/-! ## The work -/

/-- Apart from what is reported, the work leaves the instance as its run has left it. -/
structure WorkStep (s s' : Scene σ) : Prop extends StageStep s s' where
  instanceState : s'.setting.instanceState = s.setting.instanceState

instance : IsPreorder (Scene σ) WorkStep where
  refl s := ⟨refl_of StageStep s, rfl⟩
  trans _ _ _ h h' := ⟨trans_of StageStep h.toStageStep h'.toStageStep,
    h'.instanceState.trans h.instanceState⟩

def workRun (method : Method σ) (s : Scene σ) : Run σ MethodResult :=
  (c.onRequest.andThen fun () => method.call) s.setting.instanceState s.context

/-- What a run of the component's own code means to the request. -/
def concludeWork (context : RequestContext) (run : Run σ MethodResult) : Stage σ MethodResult := do
  let fields := [("component", c.fullName), ("method", context.method)]
  match services.workerTimeout.filter (· ≤ run.milliseconds) with
  | some limit =>
    report (.error "Method execution timed out" (fields ++ [("timeout", durationText limit)]))
    throw (.internal "Method execution timed out" none)
  | none =>
    match run.ending with
    | .returned result =>
      updateContext fun _ => run.context
      return result
    | .raised e =>
      updateContext fun _ => run.context
      let (error, line) := normalizeError c.fullName run.context.method e
      report line
      throw error
    | .panicked _ =>
      report (.error "Worker task failed" fields)
      throw (.internal "Method execution failed" none)

theorem execute_run (method : Method σ) (s : Scene σ) :
    (execute c services method).run s =
      (concludeWork c services s.context (workRun c method s)).run
        { s with setting := { s.setting with instanceState := (workRun c method s).state } } := rfl

theorem leaves_concludeWork (context : RequestContext) (run : Run σ MethodResult) :
    Leaves WorkStep (concludeWork c services context run) := by
  have hreport : ∀ {line : LogLine}, line.timed = false →
      Leaves WorkStep (report line : Stage σ Unit) :=
    fun h s => ⟨leaves_report h s, rfl⟩
  have hcontext : Leaves WorkStep (updateContext fun _ => run.context : Stage σ Unit) :=
    fun s => ⟨leaves_updateContext _ s, rfl⟩
  rw [concludeWork]
  cases services.workerTimeout.filter (· ≤ run.milliseconds) with
  | some limit => exact .bind (hreport rfl) fun _ => .throw _
  | none =>
      cases run.ending with
      | returned result => exact .bind hcontext fun _ => .pure result
      | raised e =>
          have hline : (normalizeError c.fullName run.context.method e).2.timed = false := by
            cases e <;> rfl
          exact .bind hcontext fun _ => .bind (hreport hline) fun _ => .throw _
      | panicked reason => exact .bind (hreport rfl) fun _ => .throw _

theorem leaves_execute (method : Method σ) : Leaves StageStep (execute c services method) := by
  intro s
  rw [execute_run]
  have hwork := leaves_concludeWork c services s.context (workRun c method s)
    { s with setting := { s.setting with instanceState := (workRun c method s).state } }
  exact ⟨hwork.log, hwork.counts⟩

/-- The instance that a request leaves is the one that the run of its work has left. -/
theorem instanceState_execute (method : Method σ) (s : Scene σ) :
    ((execute c services method).run s).2.setting.instanceState = (workRun c method s).state := by
  rw [execute_run]
  exact (leaves_concludeWork c services s.context (workRun c method s) _).instanceState

theorem leaves_serve (now : Nat) (request : Request) :
    Leaves StageStep (serve c services now request) := by
  rw [serve]
  apply Leaves.bind (leaves_prepare c services now request)
  intro method
  exact .bind (leaves_execute c services method) fun result => .pure (method, result)

end

end Gatehouse.Service
