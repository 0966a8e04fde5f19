import Gatehouse.Proofs.Component.Build

/-!
# One use of a class

Between two uses a class is settled, with a runtime or with a failure, or it is open.  A use of a
settled class gets what it is settled with and changes nothing.  A use of an open class begins an
attempt, and the class is settled with the answer of that attempt, unless a hook has broken down:
then it is as open as before, and only the count tells of the attempt.
-/

namespace Gatehouse.Component

open Effect

variable {σ : Type}

/-- Two states agree on all that a use looks at, and on the number of attempts. -/
structure SameSetup (s s' : ClassState σ) : Prop where
  ready : s'.ready = s.ready
  runtime : s'.runtime = s.runtime
  failure : s'.failure = s.failure
  attempts : s'.attempts = s.attempts

theorem SameSetup.settled? {s s' : ClassState σ} (h : SameSetup s s') :
    s'.settled? = s.settled? := by
  simp only [ClassState.settled?, ClassState.usable?, h.ready, h.runtime, h.failure]

/-- What holds of a class between two uses: it is ready exactly if a runtime stands published, and
then it has not failed. -/
structure Orderly (s : ClassState σ) : Prop where
  published : s.ready = s.runtime.isSome
  unfailed : s.ready = true → s.failure = none

namespace Orderly

theorem new : Orderly ({} : ClassState σ) := ⟨rfl, fun _ => rfl⟩

variable {s s' : ClassState σ}

theorem of_same (h : Orderly s) (same : SameSetup s s') : Orderly s' where
  published := by rw [same.ready, same.runtime, h.published]
  unfailed hready := by
    rw [same.ready] at hready
    rw [same.failure, h.unfailed hready]

theorem usable?_eq (h : Orderly s) : s.usable? = s.runtime := by
  rw [ClassState.usable?]
  cases hready : s.ready with
  | true => exact if_pos rfl
  | false =>
      have hnone : s.runtime.isSome = false := by rw [← h.published, hready]
      exact (Option.not_isSome_iff_eq_none.mp (by simp [hnone])).symm

/-- An open class has neither runtime nor failure. -/
theorem of_open (h : Orderly s) (hopen : s.settled? = none) :
    s.ready = false ∧ s.runtime = none ∧ s.failure = none := by
  rw [ClassState.settled?, h.usable?_eq] at hopen
  cases hruntime : s.runtime with
  | some runtime => simp [hruntime] at hopen
  | none =>
      cases hfailure : s.failure with
      | some e => simp [hruntime, hfailure] at hopen
      | none => exact ⟨by rw [h.published, hruntime]; rfl, rfl, rfl⟩

/-- A class that is settled with a failure has it recorded and is reported as failed. -/
theorem of_refused (h : Orderly s) {e : ServiceError} (hrefused : s.settled? = some (.error e)) :
    s.outcome? = some false ∧ ∃ recorded, s.failure = some recorded ∧ recorded.replay = e := by
  rw [ClassState.settled?, h.usable?_eq] at hrefused
  cases hruntime : s.runtime with
  | some runtime => simp [hruntime] at hrefused
  | none =>
      have hready : s.ready = false := by rw [h.published, hruntime]; rfl
      cases hfailure : s.failure with
      | none => simp [hruntime, hfailure] at hrefused
      | some recorded =>
          obtain rfl : recorded.replay = e := by simpa [hruntime, hfailure] using hrefused
          refine ⟨?_, recorded, rfl, rfl⟩
          simp [ClassState.outcome?, ClassState.hasFailed, hready, hfailure]

/-- An open class is reported as pending. -/
theorem outcome?_of_open (h : Orderly s) (hopen : s.settled? = none) : s.outcome? = none := by
  obtain ⟨hready, -, hfailure⟩ := h.of_open hopen
  simp [ClassState.outcome?, ClassState.hasFailed, hready, hfailure]

end Orderly

def settlement? : Answer σ → Option (Except ServiceError (Runtime σ))
  | .ok runtime => some (.ok runtime)
  | .error (.failed e) => some (.error e)
  | .error (.panicked _) => none

def ConcernsSetup (c : HandlerClass σ) (stop : Stop) : Prop :=
  ∀ e, stop = .failed e → ∃ message, e = .initialization c.fullName message

/-- One use of a class, with its answer and the states before and after it. -/
inductive Use (c : HandlerClass σ) : ClassState σ → Answer σ → ClassState σ → Prop where
  | finds {s : ClassState σ} {answer : Answer σ} {found : Except ServiceError (Runtime σ)}
      (settled : s.settled? = some found) (answered : answer = found.mapError .failed) :
      Use c s answer s
  | tries {s s' : ClassState σ} {answer : Answer σ} (isOpen : s.settled? = none)
      (attempts : s'.attempts = s.attempts + 1) (settled : s'.settled? = settlement? answer)
      (concerns : ∀ stop, answer = .error stop → ConcernsSetup c stop) : Use c s answer s'

theorem HandlerClass.failsOnly_build_concerns (c : HandlerClass σ) (services : Services)
    (location : String) : FailsOnly (ConcernsSetup c) (c.build services location) := by
  apply c.failsOnly_build_of (P := ConcernsSetup c)
  · rintro message e ⟨rfl⟩
    exact ⟨message, rfl⟩
  · intro context state reason _ e h
    cases h
  · intro context state reason _ e h
    cases h

/-- `ensure` is one use of the class and leaves it in order. -/
theorem HandlerClass.use_ensure (c : HandlerClass σ) (services : Services) (location : String)
    {s : Setting σ} (h : Orderly s.state) :
    Use c s.state ((c.ensure services location).run s).1
        ((c.ensure services location).run s).2.state ∧
      Orderly ((c.ensure services location).run s).2.state := by
  rw [c.ensure_run]
  rcases hsettled : s.state.settled? with _ | e | runtime
  · obtain ⟨hready, hruntime, hfailure⟩ := h.of_open hsettled
    have hcells :=
      (c.leaves_build services location { s with state := s.state.beginAttempt }).cells
    have hstop :=
      c.failsOnly_build_concerns services location { s with state := s.state.beginAttempt }
    rcases hbuild : (c.build services location).run { s with state := s.state.beginAttempt } with
      ⟨(e | reason) | runtime, between⟩
    all_goals
      rw [hbuild] at hcells hstop
      have hattempts : between.state.attempts = s.state.attempts + 1 := hcells.attempts
      have hready' : between.state.ready = false := hcells.ready.trans hready
      have hruntime' : between.state.runtime = none := hcells.runtime.trans hruntime
      have hfailure' : between.state.failure = none := hcells.failure.trans hfailure
      rw [c.setUp_run hbuild]
    · obtain ⟨message, rfl⟩ := hstop _ rfl e rfl
      refine ⟨.tries hsettled hattempts ?_ hstop, ?_, ?_⟩
      · simp [conclude, refuse, ClassState.settled?, ClassState.usable?, ClassState.fail, hready',
          hfailure', settlement?]
      · simp [conclude, refuse, ClassState.fail, hready', hruntime']
      · simp [conclude, refuse, ClassState.fail, hready']
    · refine ⟨.tries hsettled hattempts ?_ hstop, ?_, ?_⟩
      · simp [conclude, ClassState.settled?, ClassState.usable?, hready', hfailure', settlement?]
      · simp [conclude, hready', hruntime']
      · simp [conclude, hready']
    · refine ⟨.tries hsettled hattempts ?_ hstop, ?_, ?_⟩
      · simp [conclude, settle, ClassState.settled?, ClassState.usable?, ClassState.publish,
          ClassState.markReady, hruntime', settlement?]
      · simp [conclude, settle, ClassState.publish, ClassState.markReady, hruntime']
      · simp [conclude, settle, ClassState.publish, ClassState.markReady, hfailure']
  · exact ⟨.finds hsettled rfl, h⟩
  · exact ⟨.finds hsettled rfl, h⟩

/-- A use of a settled class changes nothing at all. -/
theorem HandlerClass.ensure_of_settled (c : HandlerClass σ) (services : Services)
    (location : String) {s : Setting σ} {found : Except ServiceError (Runtime σ)}
    (h : s.state.settled? = some found) :
    (c.ensure services location).run s = (found.mapError .failed, s) := by
  rw [c.ensure_run, h]
  cases found <;> rfl

end Gatehouse.Component
