import Gatehouse.Component.Setup
import Gatehouse.Proofs.Effect
import Gatehouse.Proofs.Log

/-!
# What a setup touches

Building a runtime runs the hooks of a class and reports what it does.  It never touches the cells
in which uses of the class look for a runtime or a failure, and it breaks down only if a hook does.
What a first use makes of the result is stated by equations.
-/

namespace Gatehouse.Component

open Effect

variable {σ : Type}

abbrev Answer (σ : Type) := Except Stop (Runtime σ)

/-- Two states of a class differ at most in the monitor. -/
structure SameCells (s s' : ClassState σ) : Prop where
  ready : s'.ready = s.ready
  runtime : s'.runtime = s.runtime
  failure : s'.failure = s.failure
  attempts : s'.attempts = s.attempts
  requests : s'.requests = s.requests

/-- A step of building keeps the cells and only goes on with the log. -/
structure BuildStep (s s' : Setting σ) : Prop where
  cells : SameCells s.state s'.state
  log : Log.Continues s.log s'.log

instance : IsPreorder (Setting σ) BuildStep where
  refl s := ⟨⟨rfl, rfl, rfl, rfl, rfl⟩, refl_of Log.Continues s.log⟩
  trans := by
    rintro _ _ _ ⟨⟨hr, hu, hf, ha, hq⟩, hlog⟩ ⟨⟨hr', hu', hf', ha', hq'⟩, hlog'⟩
    exact ⟨⟨hr'.trans hr, hu'.trans hu, hf'.trans hf, ha'.trans ha, hq'.trans hq⟩,
      trans_of Log.Continues hlog hlog'⟩

/-- The hooks of a class always return, with or without an error. -/
structure HandlerClass.HooksReturn (c : HandlerClass σ) : Prop where
  prepare : ∀ context state reason, (c.onPrepare context state).1 ≠ .panicked reason
  setup : ∀ context state reason, (c.onSetup context state).1 ≠ .panicked reason

/-- Providers that cannot be used are reported by lines of their own. -/
theorem untimed_loadAll (registry : Identity.Registry) (category : String) :
    ∀ line ∈ (registry.loadAll category).2, line.timed = false := by
  rw [Identity.Registry.loadAll]
  refine List.foldlRecOn (motive := fun found : Identity.Issuers × Log =>
    ∀ line ∈ found.2, line.timed = false) _ _ (fun _ h => absurd h List.not_mem_nil) ?_
  rintro ⟨issuers, log⟩ hlog name -
  cases registry.load name with
  | ok provider => exact hlog
  | error e =>
      intro line hline
      rcases List.mem_append.mp hline with h | h
      · exact hlog line h
      · rw [List.mem_singleton.mp h]
        rfl

namespace HandlerClass

variable (c : HandlerClass σ)

theorem leaves_report {lines : Log} (h : ∀ line ∈ lines, line.timed = false) :
    Leaves BuildStep (report lines : SetupM σ Unit) :=
  Leaves.modify fun _ => ⟨⟨rfl, rfl, rfl, rfl, rfl⟩, .append h⟩

theorem leaves_engine : Leaves BuildStep c.engine := by
  intro s
  have hsame : BuildStep s
      { s with policies := (s.policies.engineFor c.policySection).2 } :=
    ⟨⟨rfl, rfl, rfl, rfl, rfl⟩, refl_of Log.Continues s.log⟩
  rw [engine, run_bind_ok (run_get s), run_bind_ok (run_set _ _)]
  cases (s.policies.engineFor c.policySection).1 with
  | ok engine => exact hsame
  | error e => exact hsame

theorem leaves_startMonitor (info : Info) :
    Leaves BuildStep (startMonitor info : SetupM σ Unit) :=
  Leaves.modify fun s => ⟨⟨rfl, rfl, rfl, rfl, rfl⟩, refl_of Log.Continues s.log⟩

theorem leaves_runHook (name : String) (hook : Hook σ) (context : SetupContext) :
    Leaves BuildStep (runHook name hook context) := by
  intro s
  have hsame : BuildStep s { s with instanceState := (hook context s.instanceState).2 } :=
    ⟨⟨rfl, rfl, rfl, rfl, rfl⟩, refl_of Log.Continues s.log⟩
  rw [runHook, run_bind_ok (run_get s), run_bind_ok (run_set _ _)]
  cases (hook context s.instanceState).1 with
  | returned value => exact hsame
  | raised e => exact hsame
  | panicked reason => exact hsame

/-- Building keeps the cells of the class and only goes on with the log. -/
theorem leaves_build (services : Services) (location : String) :
    Leaves BuildStep (c.build services location) := by
  have hline : ∀ message fields,
      ∀ line ∈ ([.info message fields] : Log), line.timed = false := by
    intro message fields line hline
    rw [List.mem_singleton.mp hline]
    rfl
  rw [build]
  apply Leaves.bind (leaves_report (hline _ _))
  intro _
  apply Leaves.bind c.leaves_engine
  intro _
  apply Leaves.bind (leaves_startMonitor _)
  intro _
  apply Leaves.bind (leaves_runHook _ _ _)
  intro _
  apply Leaves.bind (leaves_runHook _ _ _)
  intro _
  apply Leaves.bind (leaves_report (untimed_loadAll _ _))
  intro _
  exact .bind (leaves_report (hline _ _)) fun _ => .pure _

def IsFailure (stop : Stop) : Prop := ∃ e, stop = .failed e

section

variable {P : Stop → Prop}

theorem failsOnly_engine
    (hfailed : ∀ message, P (.failed (.initialization c.fullName message))) :
    FailsOnly P c.engine := by
  rw [engine]
  refine .bind .get fun s => ?_
  rcases s.policies.engineFor c.policySection with ⟨answer, policies⟩
  refine .bind (.set _) fun _ => ?_
  cases answer with
  | ok engine => exact .pure engine
  | error e => exact .throw (hfailed _)

theorem failsOnly_runHook (name : String) {hook : Hook σ} (context : SetupContext)
    (hraised : ∀ state e, (hook context state).1 = .raised e →
      P (.failed (hookFailure context.info.fullName name e)))
    (hpanicked : ∀ context state reason,
      (hook context state).1 = .panicked reason → P (.panicked reason)) :
    FailsOnly P (runHook name hook context) := by
  rw [runHook]
  refine .bind .get fun s => .bind (.set _) fun _ => ?_
  cases hending : (hook context s.instanceState).1 with
  | returned value => exact .pure value
  | raised e => exact .throw (hraised _ e hending)
  | panicked reason => exact .throw (hpanicked _ _ _ hending)

variable {c} in
/-- A setup stops because its component could not be initialized, or because a hook has broken
down. -/
theorem failsOnly_build_of
    (hfailed : ∀ message, P (.failed (.initialization c.fullName message)))
    (hprepare : ∀ context state reason,
      (c.onPrepare context state).1 = .panicked reason → P (.panicked reason))
    (hsetup : ∀ context state reason,
      (c.onSetup context state).1 = .panicked reason → P (.panicked reason))
    (services : Services) (location : String) : FailsOnly P (c.build services location) := by
  rw [build]
  refine .bind (.modify _) fun _ => ?_
  refine .bind (c.failsOnly_engine hfailed) fun _ => ?_
  refine .bind (.modify _) fun _ => ?_
  refine .bind (failsOnly_runHook _ _ (fun _ _ _ => hfailed _) hprepare) fun _ => ?_
  refine .bind (failsOnly_runHook _ _ (fun _ _ _ => hfailed _) hsetup) fun _ => ?_
  refine .bind (.modify _) fun _ => ?_
  exact .bind (.modify _) fun _ => .pure _

end

variable {c} in
/-- If the hooks return, a setup that stops has failed. -/
theorem failsOnly_build (h : c.HooksReturn) (services : Services) (location : String) :
    FailsOnly IsFailure (c.build services location) := by
  apply failsOnly_build_of
  · exact fun message => ⟨_, rfl⟩
  · exact fun context state reason hpanicked => absurd hpanicked (h.prepare context state reason)
  · exact fun context state reason hpanicked => absurd hpanicked (h.setup context state reason)

/-! ## The first use -/

/-- The equation of `ensure`: what it finds, or else what a setup makes. -/
theorem ensure_run (services : Services) (location : String) (s : Setting σ) :
    (c.ensure services location).run s =
      match s.state.settled? with
      | some (.ok runtime) => (.ok runtime, s)
      | some (.error e) => (.error (.failed e), s)
      | none => c.setUp services location s := by
  rw [ensure, run_bind_ok (run_get s)]
  rcases s.state.settled? with _ | e | runtime <;> rfl

def conclude : Answer σ → Setting σ → Answer σ × Setting σ
  | .ok runtime, s => (.ok runtime, settle runtime s)
  | .error (.failed e), s => (.error (.failed e.replay), c.refuse e s)
  | .error (.panicked reason), s => (.error (.panicked reason), s)

theorem setUp_run {services : Services} {location : String} {s between : Setting σ}
    {result : Answer σ}
    (h : (c.build services location).run { s with state := s.state.beginAttempt }
      = (result, between)) :
    c.setUp services location s = c.conclude result between := by
  have h' : c.build services location { s with state := s.state.beginAttempt }
      = (result, between) := h
  rw [setUp, h']
  rcases result with (e | reason) | runtime <;> rfl

/-- What a use reports is not about the end of a request. -/
theorem continues_ensure (services : Services) (location : String) (s : Setting σ) :
    Log.Continues s.log ((c.ensure services location).run s).2.log := by
  rw [ensure_run]
  rcases s.state.settled? with _ | e | runtime
  · have hbuild := (c.leaves_build services location { s with state := s.state.beginAttempt }).log
    rcases hrun : (c.build services location).run { s with state := s.state.beginAttempt } with
      ⟨(e | reason) | runtime, between⟩
    · rw [hrun] at hbuild
      rw [c.setUp_run hrun]
      exact trans_of Log.Continues hbuild (.append_line rfl)
    · rw [hrun] at hbuild
      rw [c.setUp_run hrun]
      exact hbuild
    · rw [hrun] at hbuild
      rw [c.setUp_run hrun]
      exact hbuild
  · exact refl_of Log.Continues s.log
  · exact refl_of Log.Continues s.log

end HandlerClass

end Gatehouse.Component
