import Gatehouse.Proofs.Component.Attempt
import Gatehouse.Proofs.Service.Work
import Gatehouse.Service.Health

/-!
# A sequence of requests to one class

Requests to a class follow each other, from whatever mounts, with whatever happens between them to
instances, policies and logs; only the state of the class is handed from one to the next.  The first
request that comes to an answer in its setup settles the class for all that follow.  A setup in
which a hook breaks down comes to none, so the next request tries again.
-/

namespace Gatehouse.Service

open Component
open Effect
open Response

variable {σ : Type}

/-- Requests that are handled one after another by one class.  Each finds the state that the one
before it has left. -/
inductive Serves (c : HandlerClass σ) :
    ClassState σ → List (Visit σ) → ClassState σ → Prop where
  | nil {s : ClassState σ} : Serves c s [] s
  | cons {s last : ClassState σ} {a : Visit σ} {visits : List (Visit σ)}
      (sameClass : a.handlerClass = c) (start : a.scene.setting.state = s)
      (rest : Serves c a.handled.2.setting.state visits last) : Serves c s (a :: visits) last

namespace Visit

/-- The request finds its class open, so it begins an attempt to set it up. -/
def triesSetup (a : Visit σ) : Bool := a.scene.setting.state.settled?.isNone

/-- A hook breaks down while the request sets its class up. -/
def BreaksDown (a : Visit σ) : Prop := ∃ reason, a.setup.1 = .error (.panicked reason)

def GetsNoRuntime (a : Visit σ) : Prop := ∀ runtime, a.setup.1 ≠ .ok runtime

/-- After its setup a request leaves alone what a use of the class looks at. -/
theorem sameSetup_handled (a : Visit σ) :
    SameSetup a.setup.2.state a.handled.2.setting.state := by
  rcases stopped_or_admitted a with ⟨e, after, hstopped⟩ | ⟨d, hadmitted⟩
  · rw [hstopped.handled]
    cases hstopped <;> exact ⟨rfl, rfl, rfl, rfl⟩
  · have hstate : a.handled.2.setting.state = (a.admitted d).setting.state := by
      rw [hadmitted.handled, state_answer, state_work]
    rw [hstate]
    exact ⟨rfl, rfl, rfl, rfl⟩

/-- A request is one use of its class and leaves it in order. -/
theorem use_handled (a : Visit σ) (h : Orderly a.scene.setting.state) :
    (∃ s, Use a.handlerClass a.scene.setting.state a.setup.1 s ∧
      SameSetup s a.handled.2.setting.state) ∧ Orderly a.handled.2.setting.state := by
  obtain ⟨huse, horder⟩ := a.handlerClass.use_ensure a.services a.request.path h
  exact ⟨⟨_, huse, a.sameSetup_handled⟩, horder.of_same a.sameSetup_handled⟩

section

variable {a : Visit σ}

/-- A request that finds its class settled gets what it finds and changes nothing by that. -/
theorem setup_of_settled {found : Except ServiceError (Runtime σ)}
    (h : a.scene.setting.state.settled? = some found) :
    a.setup = (found.mapError .failed, a.scene.setting) :=
  a.handlerClass.ensure_of_settled a.services a.request.path h

theorem kept_of_settled {found : Except ServiceError (Runtime σ)}
    (h : a.scene.setting.state.settled? = some found) :
    a.handled.2.setting.state.settled? = some found ∧
      a.handled.2.setting.state.attempts = a.scene.setting.state.attempts := by
  have hsame := a.sameSetup_handled
  rw [setup_of_settled h] at hsame
  exact ⟨hsame.settled?.trans h, hsame.attempts⟩

/-- A request that finds its class open leaves it settled with its own answer, if it has one, and
counts one attempt. -/
theorem settled_of_open (horder : Orderly a.scene.setting.state)
    (hopen : a.scene.setting.state.settled? = none) :
    a.handled.2.setting.state.settled? = settlement? a.setup.1 ∧
      a.handled.2.setting.state.attempts = a.scene.setting.state.attempts + 1 ∧
      ∀ stop, a.setup.1 = .error stop → ConcernsSetup a.handlerClass stop := by
  obtain ⟨⟨s, huse, hsame⟩, -⟩ := a.use_handled horder
  cases huse with
  | finds settled =>
      rw [hopen] at settled
      cases settled
  | tries _ attempts settled concerns =>
      exact ⟨hsame.settled?.trans settled, hsame.attempts.trans attempts, concerns⟩

/-- A hook can break down only in an attempt. -/
theorem open_of_breaksDown (h : a.BreaksDown) : a.scene.setting.state.settled? = none := by
  obtain ⟨reason, hreason⟩ := h
  rcases hsettled : a.scene.setting.state.settled? with _ | e | runtime
  · rfl
  · rw [setup_of_settled hsettled] at hreason
    cases hreason
  · rw [setup_of_settled hsettled] at hreason
    cases hreason

/-- After a breakdown the class is open. -/
theorem open_of_breakdown (horder : Orderly a.scene.setting.state) (h : a.BreaksDown) :
    a.handled.2.setting.state.settled? = none := by
  obtain ⟨hsettled, -⟩ := settled_of_open horder (open_of_breaksDown h)
  obtain ⟨reason, hreason⟩ := h
  rw [hsettled, hreason]
  rfl

/-- A request that gets no runtime has failed, unless a hook has broken down. -/
theorem failed_of_no_runtime (h : a.GetsNoRuntime) (hkept : ¬ a.BreaksDown) :
    ∃ e, a.setup.1 = .error (.failed e) := by
  rcases hsetup : a.setup.1 with (e | reason) | runtime
  · exact ⟨e, rfl⟩
  · exact absurd ⟨reason, hsetup⟩ hkept
  · exact absurd hsetup (h runtime)

/-- A request that is told of a failed setup leaves its class settled with that failure. -/
theorem settled_of_failed (horder : Orderly a.scene.setting.state) {e : ServiceError}
    (h : a.setup.1 = .error (.failed e)) :
    a.handled.2.setting.state.settled? = some (.error e) := by
  rcases hsettled : a.scene.setting.state.settled? with _ | found
  · obtain ⟨hleft, -⟩ := settled_of_open horder hsettled
    rw [hleft, h]
    rfl
  · rw [setup_of_settled hsettled] at h
    rw [(kept_of_settled hsettled).1]
    cases found with
    | error recorded =>
        cases h
        rfl
    | ok runtime => cases h

end

end Visit

/-! ## Runs -/

namespace Serves

variable {c : HandlerClass σ} {s last : ClassState σ} {visits : List (Visit σ)}

/-- A class is in order after any number of requests, and has counted one attempt for each that
found it open. -/
theorem orderly (h : Serves c s visits last) (horder : Orderly s) :
    Orderly last ∧ last.attempts = s.attempts + visits.countP Visit.triesSetup := by
  induction h with
  | nil => exact ⟨horder, rfl⟩
  | @cons s last a visits _ start rest ih =>
      subst start
      obtain ⟨hlast, hattempts⟩ := ih (a.use_handled horder).2
      refine ⟨hlast, ?_⟩
      rw [hattempts, List.countP_cons]
      rcases hsettled : a.scene.setting.state.settled? with _ | found
      · rw [(Visit.settled_of_open horder hsettled).2.1, Visit.triesSetup, hsettled]
        simp only [Option.isNone_none, if_true]
        omega
      · rw [(Visit.kept_of_settled hsettled).2, Visit.triesSetup, hsettled]
        rfl

/-- A new class has been set up as often as a request found it open. -/
theorem attempts_eq (h : Serves c {} visits last) :
    last.attempts = visits.countP Visit.triesSetup := by
  rw [(h.orderly .new).2]
  exact Nat.zero_add _

/-- Once a class is settled it stays so, and every request finds what it is settled with. -/
theorem settled (h : Serves c s visits last) {found : Except ServiceError (Runtime σ)}
    (hsettled : s.settled? = some found) :
    last.settled? = some found ∧
      ∀ a ∈ visits, a.scene.setting.state.settled? = some found := by
  induction h with
  | nil => exact ⟨hsettled, fun _ h => absurd h List.not_mem_nil⟩
  | @cons s last a visits _ start rest ih =>
      subst start
      obtain ⟨hlast, hvisits⟩ := ih (Visit.kept_of_settled hsettled).1
      refine ⟨hlast, fun b hb => ?_⟩
      rcases List.mem_cons.mp hb with rfl | hb
      · exact hsettled
      · exact hvisits b hb

/-- A run up to one of its requests, and from there on. -/
theorem split {before after : List (Visit σ)} {a : Visit σ}
    (h : Serves c s (before ++ a :: after) last) :
    a.handlerClass = c ∧ Serves c s before a.scene.setting.state ∧
      Serves c a.handled.2.setting.state after last := by
  induction before generalizing s with
  | nil =>
      cases h with
      | cons sameClass start rest =>
          subst start
          exact ⟨sameClass, .nil, rest⟩
  | cons b before ih =>
      cases h with
      | cons sameClass start rest =>
          obtain ⟨hclass, hbefore, hafter⟩ := ih rest
          exact ⟨hclass, .cons sameClass start hbefore, hafter⟩

end Serves

end Gatehouse.Service
