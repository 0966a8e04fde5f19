import Gatehouse.Proofs.Service.Sequence

/-!
# What a client cannot tell apart

A failure inside a service tells the client that there was one and nothing else: two such failures
have the same response but for the id of the request.  The same holds of two callers who are not
authenticated, and of two failed setups of one component.  An error of another kind that a method
raises on purpose is told as it is.
-/

namespace Gatehouse.Service

open Component
open Effect
open Response

variable {σ τ : Type}

/-! ## Responses that differ in the id -/

/-- Two responses that no client can tell apart except by the ids in them. -/
structure AlikeButId (w w' : Writer) (id id' : String) : Prop where
  status : w.status = w'.status
  headers : w.headers = w'.headers
  body : ∃ error : Json,
    w.body = (Json.obj [("error", error), ("request_id", .str id)]).renderBytes ∧
    w'.body = (Json.obj [("error", error), ("request_id", .str id')]).renderBytes

/-- Two errors that are told to a client in the same words. -/
structure ToldAlike (e e' : ServiceError) : Prop where
  status : e.status = e'.status
  envelope : ∀ requestId, e.envelope requestId = e'.envelope requestId

theorem ToldAlike.internal (message message' : String) (source source' : Option Trail) :
    ToldAlike (.internal message source) (.internal message' source') :=
  ⟨rfl, fun _ => rfl⟩

theorem ToldAlike.authentication (failure failure' : AuthenticationFailure) :
    ToldAlike failure.toServiceError failure'.toServiceError :=
  ⟨rfl, fun _ => rfl⟩

theorem ToldAlike.initialization {component component' : String} (h : component = component')
    (message message' : String) :
    ToldAlike (.initialization component message) (.initialization component' message') := by
  subst h
  exact ⟨rfl, fun _ => rfl⟩

/-- The envelopes of errors that are told alike differ in the id at most. -/
theorem ToldAlike.alikeButId {e e' : ServiceError} (h : ToldAlike e e') (id id' : String) :
    AlikeButId (envelopeWriter e (some id)) (envelopeWriter e' (some id')) id id' where
  status := h.status
  headers := rfl
  body := by
    refine ⟨_, rfl, ?_⟩
    change (e'.envelope (some id')).renderBytes = _
    rw [← h.envelope]
    rfl

/-! ## Failures inside -/

/-- The run of a request's work fails in a way that is no concern of the client: it is late,
whatever it would have come to, it breaks down, it raises an error that is none of the service, or
an error of the service that is internal. -/
inductive FailsInside (services : Services) (run : Run σ MethodResult) : Prop where
  | late {limit : Nat} (h : services.workerTimeout = some limit) (hlate : limit ≤ run.milliseconds)
  | panicked {reason : String} (h : run.ending = .panicked reason)
  | untyped {trail : Trail} (h : run.ending = .raised (.untyped trail))
  | internal {contexts : List String} {message : String} {source : Option Trail}
      (h : run.ending = .raised (.typed contexts (.internal message source)))

/-- The run of the work of an admitted request. -/
def Visit.workOf (a : Visit σ) (d : Admission σ) : Run σ MethodResult :=
  workRun a.handlerClass d.method (a.admitted d)

/-- The id that the request has in the end.  Only its own work can have changed it. -/
def Visit.endId (a : Visit σ) : String := a.handled.2.context.requestId

/-- However the work fails inside, the failure becomes an internal error. -/
theorem FailsInside.execute {a : Visit σ} {d : Admission σ}
    (h : FailsInside a.services (a.workOf d)) :
    ∃ message source after, (execute a.handlerClass a.services d.method).run (a.admitted d) =
      (.error (.internal message source), after) := by
  cases htime : missedLimit? a.handlerClass a.services d.method (a.admitted d) with
  | some limit => exact ⟨_, _, _, execute_late htime⟩
  | none =>
      cases h with
      | @late limit hlimit hlate =>
          rw [Visit.workOf] at hlate
          rw [missedLimit?, hlimit, Option.filter_some, if_pos (decide_eq_true hlate)] at htime
          cases htime
      | panicked hending => exact ⟨_, _, _, execute_panicked htime hending⟩
      | untyped hending => exact ⟨_, _, _, execute_raised htime hending⟩
      | internal hending => exact ⟨_, _, _, execute_raised htime hending⟩

/-- A request whose work fails inside is answered with an internal error and its own id. -/
theorem Admitted.response_of_failsInside {a : Visit σ} {d : Admission σ} (h : Admitted a d)
    (hfails : FailsInside a.services (a.workOf d)) :
    ∃ message source,
      a.handled.1 = envelopeWriter (.internal message source) (some a.endId) := by
  obtain ⟨message, source, after, hrun⟩ := hfails.execute
  refine ⟨message, source, ?_⟩
  rw [Visit.endId, h.handled_of_error hrun]
  rfl

/-- An error of the service that the work raises in time is answered as it is. -/
theorem Admitted.response_of_typed {a : Visit σ} {d : Admission σ} (h : Admitted a d)
    (htime : missedLimit? a.handlerClass a.services d.method (a.admitted d) = none)
    {contexts : List String} {e : ServiceError}
    (hending : (a.workOf d).ending = .raised (.typed contexts e)) :
    a.handled.1 = envelopeWriter e (some a.endId) := by
  rw [Visit.endId, h.handled_of_error (execute_raised htime hending)]
  rfl

/-! ## Failures before the work -/

def Visit.IsUnauthenticated (a : Visit σ) : Prop :=
  ∃ runtime arguments name method failure, Resolved a runtime arguments name method ∧
    a.services.grants.resolve runtime.grants (a.grantContext runtime arguments) = .error failure

theorem Visit.IsUnauthenticated.response {a : Visit σ} (h : a.IsUnauthenticated) :
    ∃ failure : AuthenticationFailure,
      a.handled.1 =
        envelopeWriter failure.toServiceError (some a.scene.context.requestId) := by
  obtain ⟨_, _, _, _, failure, hresolved, hgrants⟩ := h
  refine ⟨failure, ?_⟩
  rw [(Stopped.authentication hresolved hgrants).handled]

/-- The failure with which a class is settled concerns the class. -/
theorem Serves.concerns {c : HandlerClass σ} {s last : ClassState σ} {visits : List (Visit σ)}
    (h : Serves c s visits last) (horder : Orderly s)
    (hbefore : ∀ e, s.settled? = some (.error e) → ConcernsSetup c (.failed e)) :
    ∀ e, last.settled? = some (.error e) → ConcernsSetup c (.failed e) := by
  induction h with
  | nil => exact hbefore
  | @cons s last a visits sameClass start rest ih =>
      subst sameClass start
      apply ih (a.use_handled horder).2
      intro e he
      rcases hsettled : a.scene.setting.state.settled? with _ | found
      · obtain ⟨hleft, -, hconcerns⟩ := Visit.settled_of_open horder hsettled
        rw [hleft] at he
        rcases hsetup : a.setup.1 with (e' | reason) | runtime
        · rw [hsetup] at he
          cases he
          exact hconcerns _ hsetup
        · rw [hsetup] at he
          cases he
        · rw [hsetup] at he
          cases he
      · rw [(Visit.kept_of_settled hsettled).1, ← hsettled] at he
        exact hbefore e he

/-- The request comes to a class that was new once, and is told that its setup has failed. -/
def Visit.IsTurnedAway (a : Visit σ) : Prop :=
  (∃ visits, Serves a.handlerClass {} visits a.scene.setting.state) ∧
    ∃ e, a.setup.1 = .error (.failed e)

theorem Visit.IsTurnedAway.response {a : Visit σ} (h : a.IsTurnedAway) :
    ∃ message, a.handled.1 = envelopeWriter
      (.initialization a.handlerClass.fullName message) (some a.scene.context.requestId) := by
  obtain ⟨⟨visits, hserves⟩, e, he⟩ := h
  obtain ⟨horder, -⟩ := hserves.orderly .new
  have hleft := Visit.settled_of_failed horder he
  have hall : Serves a.handlerClass a.scene.setting.state [a] a.handled.2.setting.state :=
    .cons rfl rfl .nil
  have hnew := hserves.concerns .new (fun _ hnone => by cases hnone)
  obtain ⟨message, rfl⟩ := hall.concerns horder hnew e hleft e rfl
  refine ⟨message, ?_⟩
  rw [(Stopped.setup he).handled]

/-! ## The result -/

/-- The envelope of an error tells its code. -/
theorem code_envelope (e : ServiceError) (requestId : Option String) :
    ((e.envelope requestId).field? "error").bind (Json.field? "code") = some (.str e.code) := by
  cases e <;> rfl

/-- Any two requests that fail inside get the same response but for their ids, and so do any two
that are not authenticated, and any two that are told of a failed setup of one component.  An error
of the service that the work raises keeps its status and its code. -/
theorem failures_are_told_alike :
    (∀ (a : Visit σ) (b : Visit τ) (d : Admission σ) (d' : Admission τ),
      Admitted a d → FailsInside a.services (a.workOf d) →
      Admitted b d' → FailsInside b.services (b.workOf d') →
      AlikeButId a.handled.1 b.handled.1 a.endId b.endId) ∧
    (∀ (a : Visit σ) (b : Visit τ), a.IsUnauthenticated → b.IsUnauthenticated →
      AlikeButId a.handled.1 b.handled.1
        a.scene.context.requestId b.scene.context.requestId) ∧
    (∀ (a : Visit σ) (b : Visit τ), a.IsTurnedAway → b.IsTurnedAway →
      a.handlerClass.fullName = b.handlerClass.fullName →
      AlikeButId a.handled.1 b.handled.1
        a.scene.context.requestId b.scene.context.requestId) ∧
    ∀ (a : Visit σ) (d : Admission σ) (contexts : List String) (e : ServiceError),
      Admitted a d → missedLimit? a.handlerClass a.services d.method (a.admitted d) = none →
      (a.workOf d).ending = .raised (.typed contexts e) →
      a.handled.1.status = e.status ∧
      ∃ body : Json, a.handled.1.body = body.renderBytes ∧
        (body.field? "error").bind (Json.field? "code") = some (.str e.code) := by
  refine ⟨?_, ?_, ?_, ?_⟩
  · intro a b d d' ha hfails hb hfails'
    obtain ⟨_, _, hresponse⟩ := ha.response_of_failsInside hfails
    obtain ⟨_, _, hresponse'⟩ := hb.response_of_failsInside hfails'
    rw [hresponse, hresponse']
    exact (ToldAlike.internal _ _ _ _).alikeButId _ _
  · intro a b ha hb
    obtain ⟨_, hresponse⟩ := ha.response
    obtain ⟨_, hresponse'⟩ := hb.response
    rw [hresponse, hresponse']
    exact (ToldAlike.authentication _ _).alikeButId _ _
  · intro a b ha hb hname
    obtain ⟨_, hresponse⟩ := ha.response
    obtain ⟨_, hresponse'⟩ := hb.response
    rw [hresponse, hresponse']
    exact (ToldAlike.initialization hname _ _).alikeButId _ _
  · intro a d contexts e ha htime hending
    rw [ha.response_of_typed htime hending]
    exact ⟨rfl, e.envelope (some a.endId), rfl, code_envelope e _⟩

def ledgerClass (grants : List String) (onSetup : Hook Unit) (call : Work Unit MethodResult) :
    HandlerClass Unit where
  system := "Accounts"
  handler := "Ledger"
  grants := grants
  onSetup := onSetup
  methodName _ := .ok "total"
  methods := [("total", { name := "total", call })]

/-- A first request to such a class, in a service that knows no grants and is impatient. -/
def ledgerVisit (c : HandlerClass Unit) (requestId : String) : Visit Unit where
  handlerClass := c
  services := { grants := [], workerTimeout := some 2 }
  now := 0
  request := { path := "/ledger" }
  scene := ⟨⟨{}, (), .fixed .allowAll, []⟩, { requestId, path := "/ledger" }, []⟩

/-- What is found out of the request if anyone may call the method. -/
def ledgerAdmission (call : Work Unit MethodResult) : Admission Unit :=
  let c := ledgerClass [] Hook.none call
  { runtime := {
      info := c.info "/ledger"
      gate := ⟨c.fullName, .allowAll⟩
      issuers := []
      methods := c.methods
      grants := []
      defaultAuthorization := none }
    arguments := ⟨"/ledger", []⟩
    name := "total"
    method := { name := "total", call }
    record := {}
    enriched := {}
    args := []
    kwargs := [] }

theorem ledger_admitted (call : Work Unit MethodResult) (requestId : String) :
    Admitted (ledgerVisit (ledgerClass [] Hook.none call) requestId) (ledgerAdmission call) :=
  ⟨⟨⟨⟨⟨⟨⟨rfl⟩, rfl⟩, rfl⟩, rfl⟩, rfl⟩, rfl⟩, rfl⟩

theorem ledger_unauthenticated (grant : String) (requestId : String) :
    (ledgerVisit (ledgerClass [grant] Hook.none (Work.done .empty)) requestId).IsUnauthenticated :=
  ⟨_, _, _, _, _, ⟨⟨⟨⟨⟨rfl⟩, rfl⟩, rfl⟩, rfl⟩, rfl⟩⟩

theorem ledger_turnedAway (reason : String) (requestId : String) :
    (ledgerVisit (ledgerClass [] (fun _ state => (.raised (.untyped ⟨[], reason⟩), state))
      (Work.done .empty)) requestId).IsTurnedAway :=
  ⟨⟨[], .nil⟩, _, rfl⟩

/-- Work that is late and work that breaks down, a caller who knows no certificate and one who
knows no token, a store that cannot be reached and one that is full: the client is told the same.
What is told of a missing sheet is that it is missing. -/
theorem ledger_failures_are_told_alike :
    let late : Work Unit MethodResult := fun state context =>
      ⟨.returned (.text "42"), state, context, 3⟩
    let broken : Work Unit MethodResult := fun state context =>
      ⟨.panicked "index out of range", state, context, 0⟩
    let missing : Work Unit MethodResult :=
      Work.raise (.typed ["reading sheet 7"] (.http .notFound "no such sheet"))
    let unreachable : Hook Unit := fun _ state => (.raised (.untyped ⟨[], "no route"⟩), state)
    let full : Hook Unit := fun _ state => (.raised (.untyped ⟨[], "disk full"⟩), state)
    AlikeButId (ledgerVisit (ledgerClass [] Hook.none late) "r1").handled.1
      (ledgerVisit (ledgerClass [] Hook.none broken) "r2").handled.1 "r1" "r2" ∧
    AlikeButId (ledgerVisit (ledgerClass ["SSL"] Hook.none (Work.done .empty)) "r1").handled.1
      (ledgerVisit (ledgerClass ["JWT"] Hook.none (Work.done .empty)) "r2").handled.1 "r1" "r2" ∧
    AlikeButId (ledgerVisit (ledgerClass [] unreachable (Work.done .empty)) "r1").handled.1
      (ledgerVisit (ledgerClass [] full (Work.done .empty)) "r2").handled.1 "r1" "r2" ∧
    (ledgerVisit (ledgerClass [] Hook.none missing) "r1").handled.1.status = .notFound := by
  intro late broken missing unreachable full
  obtain ⟨hinside, hunauthenticated, hturnedAway, htyped⟩ := @failures_are_told_alike Unit Unit
  refine ⟨?_, ?_, ?_, ?_⟩
  · have hlate : (ledgerVisit (ledgerClass [] Hook.none late) "r1").endId = "r1" := by
      rw [Visit.endId, (ledger_admitted late "r1").handled_of_error (execute_late rfl)]
      rfl
    have hbroken : (ledgerVisit (ledgerClass [] Hook.none broken) "r2").endId = "r2" := by
      rw [Visit.endId, (ledger_admitted broken "r2").handled_of_error (execute_panicked rfl rfl)]
      rfl
    have halike := hinside _ _ _ _ (ledger_admitted late "r1") (.late rfl (by decide))
      (ledger_admitted broken "r2") (.panicked rfl)
    rwa [hlate, hbroken] at halike
  · exact hunauthenticated _ _ (ledger_unauthenticated "SSL" "r1")
      (ledger_unauthenticated "JWT" "r2")
  · exact hturnedAway _ _ (ledger_turnedAway "no route" "r1") (ledger_turnedAway "disk full" "r2")
      rfl
  · exact (htyped _ _ _ _ (ledger_admitted missing "r1") rfl rfl).1

end Gatehouse.Service
