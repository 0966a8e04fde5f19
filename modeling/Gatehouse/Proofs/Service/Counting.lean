import Gatehouse.Proofs.Component.Counting
import Gatehouse.Proofs.Service.Work

/-!
# Which requests are counted

A request is counted when its method has been found, by one call of `monitorRequest`, and nothing
that becomes of it later takes this back.  No other stage touches the count or what the monitor
tells, and the setup of a class leaves both as they are before the first call.
-/

namespace Gatehouse.Component

open Effect

variable {σ : Type}

/-! ## Setup -/

def SameState (s s' : Setting σ) : Prop := s'.state = s.state

theorem sameState_report (lines : Log) :
    Leaves SameState (HandlerClass.report lines : SetupM σ Unit) :=
  Leaves.modify fun _ => rfl

theorem sameState_runHook (name : String) (hook : Hook σ) (context : SetupContext) :
    Leaves SameState (HandlerClass.runHook name hook context) := by
  intro s
  rw [HandlerClass.runHook, run_bind_ok (run_get s), run_bind_ok (run_set _ _)]
  cases (hook context s.instanceState).1 <;> rfl

/-- A runtime is never built without a new monitor. -/
theorem monitor_build {c : HandlerClass σ} {services : Services} {location : String}
    {s s' : Setting σ} {runtime : Runtime σ}
    (h : (c.build services location).run s = (.ok runtime, s')) :
    s'.state.monitor = some (initialMonitor (c.info location)) := by
  obtain ⟨_, s₁, -, h⟩ := run_bind_eq_ok h
  obtain ⟨_, s₂, -, h⟩ := run_bind_eq_ok h
  obtain ⟨_, s₃, hstart, h⟩ := run_bind_eq_ok h
  -- What follows the start of the monitor only runs hooks and reports.
  obtain ⟨_, s₄, hprepare, h⟩ := run_bind_eq_ok h
  obtain ⟨_, s₅, hsetup, h⟩ := run_bind_eq_ok h
  obtain ⟨_, s₆, hskipped, h⟩ := run_bind_eq_ok h
  obtain ⟨_, s₇, hdone, h⟩ := run_bind_eq_ok h
  have hprepared : SameState s₃ s₄ := (sameState_runHook _ _ _).of_run hprepare
  have hset : SameState s₄ s₅ := (sameState_runHook _ _ _).of_run hsetup
  have hreported : SameState s₅ s₆ := (sameState_report _).of_run hskipped
  have hend : SameState s₆ s₇ := (sameState_report _).of_run hdone
  have hstarted : s₃.state.monitor = some (initialMonitor (c.info location)) :=
    (congrArg (fun run => run.2.state.monitor) hstart).symm
  obtain rfl : s₇ = s' := congrArg Prod.snd h
  have hstate : s₇.state = s₃.state := hend.trans (hreported.trans (hset.trans hprepared))
  rw [hstate, hstarted]

/-- A new monitor tells of nothing. -/
theorem unserved_initialMonitor {s : ClassState σ} {info : Info} (hrequests : s.requests = 0)
    (hmonitor : s.monitor = some (initialMonitor info)) : Counting.Unserved s where
  requests := hrequests
  monitor := ⟨_, hmonitor, rfl, rfl⟩

/-- A setup that ends well leaves a class of which nothing has been counted. -/
theorem unserved_ensure {c : HandlerClass σ} {services : Services} {location : String}
    {s s' : Setting σ} {runtime : Runtime σ} (hnew : s.state.settled? = none)
    (hrequests : s.state.requests = 0)
    (h : (c.ensure services location).run s = (.ok runtime, s')) : Counting.Unserved s'.state := by
  have hcells := (c.leaves_build services location
    { s with state := s.state.beginAttempt }).cells
  rw [c.ensure_run, hnew] at h
  rcases hbuild : (c.build services location).run { s with state := s.state.beginAttempt } with
    ⟨result, between⟩
  rw [hbuild] at hcells
  simp only [c.setUp_run hbuild] at h
  rcases result with (e | reason) | built
  · cases h
  · cases h
  · cases h
    have hmonitor := monitor_build hbuild
    exact unserved_initialMonitor (hcells.requests.trans hrequests) hmonitor

/-- The setup of a class does not count. -/
theorem requests_ensure (c : HandlerClass σ) (services : Services) (location : String)
    (s : Setting σ) :
    ((c.ensure services location).run s).2.state.requests = s.state.requests := by
  rw [c.ensure_run]
  rcases s.state.settled? with _ | e | runtime
  · have hcells := (c.leaves_build services location
      { s with state := s.state.beginAttempt }).cells
    rcases hbuild : (c.build services location).run { s with state := s.state.beginAttempt } with
      ⟨result, between⟩
    rw [hbuild] at hcells
    simp only [c.setUp_run hbuild]
    rcases result with (e | reason) | built <;> exact hcells.requests
  · rfl
  · rfl

end Gatehouse.Component

namespace Gatehouse.Service

open Component (ClassState HandlerClass Method Runtime)
open Component.Counting
open Effect
open Response

variable {σ : Type}

/-! ## Requests -/

/-- The request gets as far as a method that its class exports. -/
def Visit.FindsMethod (a : Visit σ) : Prop :=
  ∃ runtime arguments name method, Resolved a runtime arguments name method

theorem Named.findsMethod_iff {a : Visit σ} {runtime : Runtime σ} {arguments : Arguments}
    {name : String} (h : Named a runtime arguments name) :
    a.FindsMethod ↔ ∃ method, runtime.methods.resolve name = some method := by
  constructor
  · rintro ⟨runtime', arguments', name', method, hresolved⟩
    obtain rfl : runtime = runtime' := Except.ok.inj (h.setup.symm.trans hresolved.setup)
    obtain rfl : arguments = arguments' := Except.ok.inj (h.parsed.symm.trans hresolved.parsed)
    obtain rfl : name = name' := Except.ok.inj (h.named.symm.trans hresolved.named)
    exact ⟨method, hresolved.resolved⟩
  · rintro ⟨method, hmethod⟩
    exact ⟨runtime, arguments, name, method, h, hmethod⟩

/-- A request that is stopped has been counted if its method was found, and otherwise it has not. -/
theorem Stopped.state {a : Visit σ} {e : ServiceError} {after : Scene σ} (h : Stopped a e after) :
    (a.FindsMethod →
      after.setting.state = a.setup.2.state.monitorRequest a.scene.context.path) ∧
    (¬ a.FindsMethod → after.setting.state = a.setup.2.state) := by
  cases h with
  | setup hsetup =>
      refine ⟨?_, fun _ => rfl⟩
      rintro ⟨runtime, arguments, name, method, hresolved⟩
      cases hsetup.symm.trans hresolved.setup
  | brokenSetup hsetup =>
      refine ⟨?_, fun _ => rfl⟩
      rintro ⟨runtime, arguments, name, method, hresolved⟩
      cases hsetup.symm.trans hresolved.setup
  | arguments before hparse =>
      refine ⟨?_, fun _ => rfl⟩
      rintro ⟨runtime, arguments, name, method, hresolved⟩
      cases hparse.symm.trans hresolved.parsed
  | methodName before hname =>
      refine ⟨?_, fun _ => rfl⟩
      rintro ⟨runtime, arguments, name, method, hresolved⟩
      obtain rfl := Except.ok.inj (before.parsed.symm.trans hresolved.parsed)
      cases hname.symm.trans hresolved.named
  | resolution before hnone =>
      refine ⟨fun hfinds => ?_, fun _ => rfl⟩
      obtain ⟨method, hmethod⟩ := before.findsMethod_iff.mp hfinds
      cases hnone.symm.trans hmethod
  | authentication before hfailure =>
      exact ⟨fun _ => rfl, fun hnot => absurd ⟨_, _, _, _, before⟩ hnot⟩
  | authorization before hrefused =>
      exact ⟨fun _ => rfl, fun hnot => absurd ⟨_, _, _, _, before.toResolved⟩ hnot⟩
  | methodArguments before hdecode =>
      exact ⟨fun _ => rfl, fun hnot => absurd ⟨_, _, _, _, before.toResolved⟩ hnot⟩

/-- A request whose method was found is counted by one call, whatever becomes of it, and no other
request is counted. -/
theorem state_handled (a : Visit σ) :
    (a.FindsMethod →
      a.handled.2.setting.state = a.setup.2.state.monitorRequest a.scene.context.path) ∧
    (¬ a.FindsMethod → a.handled.2.setting.state = a.setup.2.state) := by
  rcases stopped_or_admitted a with ⟨e, after, hstopped⟩ | ⟨d, hadmitted⟩
  · rw [hstopped.handled]
    exact hstopped.state
  · rw [hadmitted.handled, state_answer, state_work]
    exact ⟨fun _ => rfl, fun hnot => absurd ⟨_, _, _, _, hadmitted.toResolved⟩ hnot⟩

/-- Calls that count requests of a class may be interleaved in any way.  The numbers that they have
drawn are those from one to the count of requests, no two of them have the same, and there are as
many requests as calls with a number.  There are never more marks than requests, and as many once no
call is under way; what is published is a number that was drawn.

It is so from the first successful setup of a class on.  A request brings about one such call, from
its first step to its last, if its method is found, whatever becomes of the request later; and any
other request leaves the state as its use of the class has left it, which does not count. -/
theorem counted_requests_have_found_methods {κ : Type} [DecidableEq κ] (paths : κ → String)
    {start : ClassState σ} (hstart : Unserved start) :
    (∀ w : World κ σ, Reachable paths start w →
      (∀ i j served, (w.phase i).served? = some served → (w.phase j).served? = some served →
        i = j) ∧
      (∀ served, (∃ i, (w.phase i).served? = some served) ↔
        1 ≤ served ∧ served ≤ w.state.requests) ∧
      w.state.requests = {i | (w.phase i).served?.isSome = true}.ncard ∧
      ∃ m, w.state.monitor = some m ∧
        m.marks Telemetry.Activity.queries.name ≤ w.state.requests ∧
        ((∀ i, (w.phase i).underWay = false) →
          m.marks Telemetry.Activity.queries.name = w.state.requests) ∧
        ∀ value, m.extra? "queries" = some value →
          ∃ i served, (w.phase i).served? = some served ∧ value = .int served) ∧
    ∀ a : Visit σ,
      (a.scene.setting.state.settled? = none → a.scene.setting.state.requests = 0 →
        ∀ runtime, a.setup.1 = .ok runtime → Unserved a.setup.2.state) ∧
      a.setup.2.state.requests = a.scene.setting.state.requests ∧
      (a.FindsMethod → Moves a.scene.context.path a.setup.2.state .arriving
        a.handled.2.setting.state (.done (a.setup.2.state.requests + 1))) ∧
      (¬ a.FindsMethod → a.handled.2.setting.state = a.setup.2.state) := by
  constructor
  · intro w hreach
    have h := hreach.accounted hstart
    obtain ⟨m, htold⟩ := h.told
    exact ⟨h.distinct, h.exact, h.requests.2, m, htold.monitor, h.marks_le htold,
      h.marks_eq htold, htold.published⟩
  · intro a
    have hstate := state_handled a
    refine ⟨fun hnew hrequests runtime hsetup => ?_, Component.requests_ensure _ _ _ _, ?_,
      hstate.2⟩
    · exact Component.unserved_ensure hnew hrequests (Prod.ext hsetup rfl)
    · intro hfinds
      rw [hstate.1 hfinds]
      exact moves_monitorRequest _ _

def bothAt (first second : Phase) : Bool → Phase
  | false => first
  | true => second

theorem step_first {s s' : ClassState Unit} {p p' q : Phase} (move : Move "/ledger" s p s' p') :
    Step (fun _ => "/ledger") (⟨s, bothAt p q⟩ : World Bool Unit) ⟨s', bothAt p' q⟩ := by
  have hphases : bothAt p' q = Function.update (bothAt p q) false p' := by
    funext i
    cases i <;> rfl
  rw [hphases]
  exact .of (w := ⟨s, bothAt p q⟩) false move

theorem step_second {s s' : ClassState Unit} {p q q' : Phase} (move : Move "/ledger" s q s' q') :
    Step (fun _ => "/ledger") (⟨s, bothAt p q⟩ : World Bool Unit) ⟨s', bothAt p q'⟩ := by
  have hphases : bothAt p q' = Function.update (bothAt p q) true q' := by
    funext i
    cases i <;> rfl
  rw [hphases]
  exact .of (w := ⟨s, bothAt p q⟩) true move

/-- Two calls on a new class, the first of which is overtaken: both are counted, and the number
that stands published in the end is the first. -/
theorem overtaken_call_is_counted :
    ∃ (w : World Bool Unit) (start : ClassState Unit),
      Unserved start ∧ Reachable (fun _ => "/ledger") start w ∧
      w.state.requests = 2 ∧ ∃ m, w.state.monitor = some m ∧
        m.marks Telemetry.Activity.queries.name = 2 ∧ m.extra? "queries" = some (.int 1) := by
  let info : Component.Info := ⟨"Accounts/Ledger", "Accounts", "Ledger", "/ledger", "0.1.0"⟩
  let start : ClassState Unit := { monitor := some (Component.initialMonitor info) }
  have hstart : Unserved start := Component.unserved_initialMonitor rfl rfl
  have hnew : World.new Bool start = ⟨start, bothAt .arriving .arriving⟩ := by
    rw [World.new]
    congr 1
    funext i
    cases i <;> rfl
  have hdrawn : Reachable (fun _ => "/ledger") start
      ⟨{ start with requests := 2 }, bothAt (.locating 1) (.locating 2)⟩ := by
    rw [Reachable, hnew]
    exact .tail (.tail .refl (step_first .draw)) (step_second .draw)
  have hovertaken := ((hdrawn.tail (step_second .locate)).tail (step_second .publish)).tail
    (step_second .mark)
  have hreach := ((hovertaken.tail (step_first .locate)).tail (step_first .publish)).tail
    (step_first .mark)
  obtain ⟨m, hm, -, hmarks, -⟩ :=
    ((counted_requests_have_found_methods _ hstart).1 _ hreach).2.2.2
  refine ⟨_, start, hstart, hreach, rfl, m, hm, hmarks ?_, ?_⟩
  · rintro (_ | _) <;> rfl
  · cases hm
    rfl

end Gatehouse.Service
