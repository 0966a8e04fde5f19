import Gatehouse.Proofs.Service.Record

/-!
# Stages in order

A request passes its stages one after another.  The first that fails decides the response, and
nothing that belongs to a later stage happens; the component's own code runs once, and only for a
request that has passed them all.
-/

namespace Gatehouse.Service

open Component (HandlerClass Method MethodTable Runtime Work)
open Effect
open Response

variable {σ : Type}

/-! ## What is left to do -/

namespace Visit

variable (a : Visit σ) (runtime : Runtime σ) (arguments : Arguments)

def decode (method : Method σ) : Stage σ (Method σ) := do
  let (args, kwargs) ← liftM (a.handlerClass.methodArguments arguments)
  updateContext ({ · with args, kwargs, rawContent := arguments.rawContent })
  return method

def judge (method : Method σ) : Stage σ (Method σ) := do
  authorize runtime method
  a.decode arguments method

def identify (method : Method σ) : Stage σ (Method σ) := do
  authenticate a.services runtime (a.grantContext runtime arguments)
  a.judge runtime arguments method

def lookUp (name : String) : Stage σ (Method σ) := do
  let method ← resolveMethod runtime name
  a.identify runtime arguments method

def nameMethod : Stage σ (Method σ) := do
  let name ← liftM (a.handlerClass.methodName arguments)
  a.lookUp runtime arguments name

def readRequest : Stage σ (Method σ) := do
  let arguments ← liftM (Arguments.parse a.request)
  a.nameMethod runtime arguments

def prepare : Stage σ (Method σ) :=
  Service.prepare a.handlerClass a.services a.now a.request

theorem prepare_eq : a.prepare = runtimeFor a.handlerClass a.services a.request.path >>=
    fun runtime => a.readRequest runtime := rfl

def handled : Writer × Scene σ :=
  (handle a.handlerClass a.services a.now a.request).run a.scene

end Visit

/-! ## Stage by stage -/

section

variable {a : Visit σ} {runtime : Runtime σ} {arguments : Arguments} {name : String}
  {method : Method σ} {record enriched : Credential}

/-- The first stage hands on what the use of the class has come to. -/
theorem runtimeFor_visit {answer : Except Component.Stop (Runtime σ)}
    (h : a.setup.1 = answer) :
    (runtimeFor a.handlerClass a.services a.request.path).run a.scene =
      settled a.handlerClass a.scene (answer, a.setup.2) := by
  rw [runtimeFor_run, ← h]
  rfl

theorem SetUp.run (h : SetUp a runtime) :
    a.prepare.run a.scene = (a.readRequest runtime).run a.afterSetup := by
  rw [Visit.prepare_eq]
  exact run_bind_ok (runtimeFor_visit h.setup)

theorem Parsed.run (h : Parsed a runtime arguments) :
    a.prepare.run a.scene = (a.nameMethod runtime arguments).run a.afterSetup := by
  rw [h.toSetUp.run, Visit.readRequest, h.parsed]
  exact run_bind_ok (run_liftM _ _)

theorem Named.run (h : Named a runtime arguments name) :
    a.prepare.run a.scene = (a.lookUp runtime arguments name).run a.afterSetup := by
  rw [h.toParsed.run, Visit.nameMethod, h.named]
  exact run_bind_ok (run_liftM _ _)

theorem Resolved.run (h : Resolved a runtime arguments name method) :
    a.prepare.run a.scene =
      (a.identify runtime arguments method).run (a.afterResolution name) := by
  have hresolve := resolveMethod_run runtime name a.afterSetup
  rw [h.resolved] at hresolve
  rw [h.toNamed.run, Visit.lookUp]
  exact run_bind_ok hresolve

theorem Authenticated.run (h : Authenticated a runtime arguments name method record) :
    a.prepare.run a.scene =
      (a.judge runtime arguments method).run (a.afterAuthentication name record) := by
  have hgrants := authenticate_run a.services runtime (a.grantContext runtime arguments)
    (a.afterResolution name)
  rw [h.authenticated] at hgrants
  rw [h.toResolved.run, Visit.identify]
  exact run_bind_ok hgrants

theorem Authorized.run (h : Authorized a runtime arguments name method record enriched) :
    a.prepare.run a.scene =
      (a.decode arguments method).run (a.afterAuthorization name enriched
        (method.required <|> runtime.defaultAuthorization)) := by
  have hengine : (authorize runtime method).run (a.afterAuthentication name record) =
      (.ok (), a.afterAuthorization name enriched
        (method.required <|> runtime.defaultAuthorization)) := authorize_allowed h.authorized
  rw [h.toAuthenticated.run, Visit.judge]
  exact run_bind_ok hengine

end

/-- The scene in which the work of an admitted request is done. -/
def Visit.admitted (a : Visit σ) (d : Admission σ) : Scene σ :=
  (a.afterAuthorization d.name d.enriched
    (d.method.required <|> d.runtime.defaultAuthorization)).updated
      ({ · with args := d.args, kwargs := d.kwargs, rawContent := d.arguments.rawContent })

theorem Admitted.run {a : Visit σ} {d : Admission σ} (h : Admitted a d) :
    a.prepare.run a.scene = (.ok d.method, a.admitted d) := by
  rw [h.toAuthorized.run, Visit.decode, h.decoded]
  exact run_bind_ok (run_liftM _ _)

/-- A request that is stopped ends with the error and in the scene of the stage that has stopped
it. -/
theorem Stopped.run {a : Visit σ} {e : ServiceError} {after : Scene σ} (h : Stopped a e after) :
    a.prepare.run a.scene = (.error e, after) := by
  cases h with
  | setup hsetup =>
      rw [Visit.prepare_eq]
      exact run_bind_error (runtimeFor_visit hsetup)
  | brokenSetup hbroken =>
      rw [Visit.prepare_eq]
      exact run_bind_error (runtimeFor_visit hbroken)
  | arguments before hparse =>
      rw [before.run, Visit.readRequest, hparse]
      exact run_bind_error (run_liftM _ _)
  | methodName before hname =>
      rw [before.run, Visit.nameMethod, hname]
      exact run_bind_error (run_liftM _ _)
  | @resolution runtime _ name before hnone =>
      have hresolve := resolveMethod_run runtime name a.afterSetup
      rw [hnone] at hresolve
      rw [before.run, Visit.lookUp]
      exact run_bind_error hresolve
  | @authentication runtime arguments name _ _ before hfailure =>
      have hgrants := authenticate_run a.services runtime (a.grantContext runtime arguments)
        (a.afterResolution name)
      rw [hfailure] at hgrants
      rw [before.run, Visit.identify]
      exact run_bind_error hgrants
  | authorization before hrefused =>
      rw [before.run, Visit.judge]
      exact run_bind_error (authorize_refused hrefused)
  | methodArguments before hdecode =>
      rw [before.run, Visit.decode, hdecode]
      exact run_bind_error (run_liftM _ _)

/-! ## The whole request -/

/-- Whatever becomes of a request, its end does not touch the instance. -/
theorem instanceState_answer (c : HandlerClass σ)
    (outcome : Except ServiceError (Method σ × MethodResult) × Scene σ) :
    (answer c outcome).2.setting.instanceState = outcome.2.setting.instanceState := by
  rcases outcome with ⟨e | ⟨method, result⟩, s⟩
  · rfl
  · rw [answer]
    rcases completion method result s with ⟨error | structured, w⟩ <;> rfl

theorem Stopped.requestId {a : Visit σ} {e : ServiceError} {after : Scene σ}
    (h : Stopped a e after) : after.context.requestId = a.scene.context.requestId := by
  cases h <;> rfl

theorem Stopped.instanceState {a : Visit σ} {e : ServiceError} {after : Scene σ}
    (h : Stopped a e after) : after.setting.instanceState = a.setup.2.instanceState := by
  cases h <;> rfl

theorem Stopped.handled {a : Visit σ} {e : ServiceError} {after : Scene σ}
    (h : Stopped a e after) :
    a.handled = (envelopeWriter e (some a.scene.context.requestId),
      after.recorded a.handlerClass (envelopeWriter e (some a.scene.context.requestId)) none) := by
  have hserve : (serve a.handlerClass a.services a.now a.request).run a.scene = (.error e, after) :=
    run_bind_error h.run
  rw [Visit.handled, handle_run, hserve, ← h.requestId]
  rfl

/-- The work of an admitted request. -/
def Visit.work (a : Visit σ) (d : Admission σ) : Stage σ (Method σ × MethodResult) := do
  return (d.method, ← execute a.handlerClass a.services d.method)

theorem Admitted.handled {a : Visit σ} {d : Admission σ} (h : Admitted a d) :
    a.handled = answer a.handlerClass ((a.work d).run (a.admitted d)) := by
  have hserve : (serve a.handlerClass a.services a.now a.request).run a.scene =
      (a.work d).run (a.admitted d) := run_bind_ok h.run
  rw [Visit.handled, handle_run, hserve]

theorem instanceState_work (a : Visit σ) (d : Admission σ) (s : Scene σ) :
    ((a.work d).run s).2.setting.instanceState =
      (workRun a.handlerClass d.method s).state := by
  have hexecute := instanceState_execute a.handlerClass a.services d.method s
  rw [Visit.work]
  rcases hrun : (execute a.handlerClass a.services d.method).run s with ⟨e | result, s'⟩
  · rw [hrun] at hexecute
    rw [run_bind_error hrun]
    exact hexecute
  · rw [hrun] at hexecute
    rw [run_bind_ok hrun]
    exact hexecute

/-! ## Calls of the component's own code -/

inductive Call where
  | request (context : RequestContext)
  | method (name : String) (context : RequestContext)

/-- The instance keeps account of every call of the component's own code. -/
structure Accounts (c : HandlerClass σ) (methods : MethodTable σ) (calls : σ → List Call) :
    Prop where
  request : ∀ state context,
    calls (c.onRequest state context).state = calls state ++ [.request context]
  method : ∀ name method, methods.resolve name = some method → ∀ state context,
    calls (method.call state context).state = calls state ++ [.method name context]

/-- The calls that work consists of: one for the request, and one of the method if the first has
returned. -/
def workCalls (c : HandlerClass σ) (name : String) (state : σ) (context : RequestContext) :
    List Call :=
  match (c.onRequest state context).ending with
  | .returned () => [.request context, .method name (c.onRequest state context).context]
  | _ => [.request context]

theorem state_workRun (c : HandlerClass σ) (method : Method σ) (s : Scene σ) :
    (workRun c method s).state =
      match (c.onRequest s.setting.instanceState s.context).ending with
      | .returned () => (method.call (c.onRequest s.setting.instanceState s.context).state
          (c.onRequest s.setting.instanceState s.context).context).state
      | _ => (c.onRequest s.setting.instanceState s.context).state := by
  simp only [workRun, Work.andThen]
  cases (c.onRequest s.setting.instanceState s.context).ending <;> rfl

theorem Accounts.workRun {c : HandlerClass σ} {methods : MethodTable σ} {calls : σ → List Call}
    (h : Accounts c methods calls) {name : String} {method : Method σ}
    (hmethod : methods.resolve name = some method) (s : Scene σ) :
    calls (workRun c method s).state =
      calls s.setting.instanceState ++
        workCalls c name s.setting.instanceState s.context := by
  have hrequest := h.request s.setting.instanceState s.context
  rw [state_workRun, workCalls]
  cases (c.onRequest s.setting.instanceState s.context).ending with
  | returned value =>
      simp only [h.method name method hmethod, hrequest, List.append_assoc]
      rfl
  | raised error => exact hrequest
  | panicked reason => exact hrequest

/-- The context in which the work of an admitted request is done. -/
def Visit.contextFor (a : Visit σ) (d : Admission σ) : RequestContext :=
  { a.scene.context with
    method := d.name
    credentials := d.enriched
    requiredProperties := d.method.required <|> d.runtime.defaultAuthorization
    args := d.args
    kwargs := d.kwargs
    rawContent := d.arguments.rawContent }

/-- A request either passes all stages or is stopped by the first that fails, and not both.  If it
is stopped, the response is the envelope of that stage's error, the scene is the one that stage has
left, with the record of the request added, and the component's own code has not run.  If it passes,
all that follows is its work and its response, and the work has called the code for the request and
the method at most once each, in this order and in the context that the stages have made. -/
theorem stages_in_order (a : Visit σ) :
    ((∃ e after, Stopped a e after) ∨ ∃ d, Admitted a d) ∧
    (∀ e after d, Stopped a e after → ¬ Admitted a d) ∧
    (∀ e after, Stopped a e after →
      a.handled = (envelopeWriter e (some a.scene.context.requestId),
        after.recorded a.handlerClass (envelopeWriter e (some a.scene.context.requestId)) none) ∧
      a.handled.2.setting.instanceState = a.setup.2.instanceState) ∧
    ∀ d, Admitted a d →
      a.handled = answer a.handlerClass ((a.work d).run (a.admitted d)) ∧
      (a.admitted d).context = a.contextFor d ∧
      (a.admitted d).setting.instanceState = a.setup.2.instanceState ∧
      a.handled.2.setting.instanceState =
        (workRun a.handlerClass d.method (a.admitted d)).state ∧
      ∀ calls, Accounts a.handlerClass d.runtime.methods calls →
        calls a.handled.2.setting.instanceState = calls a.setup.2.instanceState ++
          workCalls a.handlerClass d.name a.setup.2.instanceState (a.contextFor d) := by
  refine ⟨stopped_or_admitted a, ?_, ?_, ?_⟩
  · intro e after d hstopped hadmitted
    have hrun := hstopped.run.symm.trans hadmitted.run
    cases hrun
  · intro e after hstopped
    refine ⟨hstopped.handled, ?_⟩
    rw [hstopped.handled]
    exact hstopped.instanceState
  · intro d hadmitted
    have hstate : a.handled.2.setting.instanceState =
        (workRun a.handlerClass d.method (a.admitted d)).state := by
      rw [hadmitted.handled, instanceState_answer, instanceState_work]
    refine ⟨hadmitted.handled, rfl, rfl, hstate, fun calls hcalls => ?_⟩
    rw [hstate]
    exact hcalls.workRun hadmitted.resolved (a.admitted d)

def accountingClass : HandlerClass (List Call) where
  system := "Accounts"
  handler := "Ledger"
  grants := []
  methodName _ := .ok "total"
  onRequest calls context := ⟨.returned (), calls ++ [.request context], context, 0⟩
  methods := [("total", {
    name := "total"
    call := fun calls context =>
      ⟨.returned .empty, calls ++ [.method "total" context], context, 0⟩ })]

theorem accountingClass_accounts :
    Accounts accountingClass accountingClass.methods (fun calls => calls) where
  request _ _ := rfl
  method name method h state context := by
    have hname : name = "total" := by
      by_contra hne
      have hnone : accountingClass.methods.resolve name = none := by
        simp [accountingClass, MethodTable.resolve, Table.get?, Ne.symm hne]
      rw [hnone] at h
      cases h
    subst hname
    cases h
    rfl

/-- A first request to such a class passes all stages, and both calls are written down once. -/
theorem accountingClass_calls_once :
    ∃ (a : Visit (List Call)) (d : Admission (List Call)),
      a.handlerClass = accountingClass ∧ Admitted a d ∧ a.scene.setting.instanceState = [] ∧
      a.handled.2.setting.instanceState =
        [.request (a.contextFor d), .method "total" (a.contextFor d)] := by
  let a : Visit (List Call) := {
    handlerClass := accountingClass
    services := {}
    now := 0
    request := { path := "/ledger" }
    scene := ⟨⟨{}, [], .fixed .allowAll, []⟩, { path := "/ledger" }, []⟩ }
  let runtime : Runtime (List Call) := {
    info := accountingClass.info "/ledger"
    gate := ⟨accountingClass.fullName, .allowAll⟩
    issuers := []
    methods := accountingClass.methods
    grants := []
    defaultAuthorization := none }
  have hname : accountingClass.methods.resolve "total" = some _ := rfl
  have hadmitted : Admitted a ⟨runtime, ⟨"/ledger", []⟩, "total", _, {}, {}, [], []⟩ :=
    ⟨⟨⟨⟨⟨⟨⟨rfl⟩, rfl⟩, rfl⟩, hname⟩, rfl⟩, rfl⟩, rfl⟩
  obtain ⟨-, -, -, hadmits⟩ := stages_in_order a
  obtain ⟨-, -, -, -, hcalls⟩ := hadmits _ hadmitted
  exact ⟨a, _, rfl, hadmitted, rfl, hcalls (fun calls => calls) accountingClass_accounts⟩

end Gatehouse.Service
