import Gatehouse.Proofs.Component.Build
import Mathlib.Logic.Function.Basic
import Mathlib.Logic.Relation

/-!
# Uses of a class that run at the same time

`HandlerClass.ensure` is one use of a class that nothing interrupts.  Here a use is cut into its
atomic steps: the look at `ready` without the lock, the wait for the lock, the second look, the look
for a failure, the count of the attempt, the build, and the three writes that make its result known.
Any number of uses share one `ClassState`, and a step of the whole is a step of any one of them.

What a build reads besides the class, namely the handler instance, the policies and the log, may
change at any time, so a step that builds takes whatever it finds there.
-/

namespace Gatehouse.Component

open Effect

variable {σ : Type}

structure Caller where
  services : Services
  location : String

/-- Where a use stands.  The two looks for a runtime are the same code, without the lock and
with it. -/
inductive Phase (σ : Type) where
  /-- About to look whether the class is ready. -/
  | looking (locked : Bool)
  /-- About to fetch the runtime of a class that was ready. -/
  | fetching (locked : Bool)
  /-- About to take the lock. -/
  | waiting
  /-- About to look for a recorded failure. -/
  | checking
  /-- About to count the attempt. -/
  | counting
  | building
  /-- About to publish the runtime it has built. -/
  | publishing (runtime : Runtime σ)
  /-- About to declare the published runtime ready. -/
  | declaring (runtime : Runtime σ)
  /-- About to record why its setup failed. -/
  | recording (error : ServiceError)
  /-- About to release the lock. -/
  | leaving (answer : Answer σ)
  | returned (answer : Answer σ)

namespace Phase

/-- Whether a use that stands here has the lock. -/
def hasLock : Phase σ → Bool
  | .looking locked | .fetching locked => locked
  | .waiting | .returned _ => false
  | _ => true

def unsettled : Bool → Phase σ
  | true => .checking
  | false => .waiting

/-- Where a use goes with an answer that it found rather than made. -/
def found (answer : Answer σ) : Bool → Phase σ
  | true => .leaving answer
  | false => .returned answer

/-- Where a build leads.  A hook that breaks down takes the use out of the lock with it. -/
def built : Answer σ → Phase σ
  | .ok runtime => .publishing runtime
  | .error (.failed e) => .recording e
  | .error (.panicked reason) => .leaving (.error (.panicked reason))

/-- How many atomic steps a use takes at most from here on. -/
def remaining : Phase σ → Nat
  | .looking false => 12
  | .fetching false => 11
  | .waiting => 10
  | .looking true => 9
  | .fetching true => 8
  | .checking => 7
  | .counting => 6
  | .building => 5
  | .publishing _ => 4
  | .declaring _ => 3
  | .recording _ => 2
  | .leaving _ => 1
  | .returned _ => 0

end Phase

/-- One atomic step of a use on the state of the class. -/
inductive Move (c : HandlerClass σ) (caller : Caller) :
    ClassState σ → Phase σ → ClassState σ → Phase σ → Prop where
  | notReady {s : ClassState σ} {locked : Bool} (h : s.ready = false) :
      Move c caller s (.looking locked) s (.unsettled locked)
  | ready {s : ClassState σ} {locked : Bool} (h : s.ready = true) :
      Move c caller s (.looking locked) s (.fetching locked)
  | fetch {s : ClassState σ} {locked : Bool} {runtime : Runtime σ} (h : s.runtime = some runtime) :
      Move c caller s (.fetching locked) s (.found (.ok runtime) locked)
  | miss {s : ClassState σ} {locked : Bool} (h : s.runtime = none) :
      Move c caller s (.fetching locked) s (.unsettled locked)
  | lock {s : ClassState σ} : Move c caller s .waiting s (.looking true)
  | refused {s : ClassState σ} {e : ServiceError} (h : s.failure = some e) :
      Move c caller s .checking s (.leaving (.error (.failed e.replay)))
  | untried {s : ClassState σ} (h : s.failure = none) : Move c caller s .checking s .counting
  | count {s : ClassState σ} : Move c caller s .counting s.beginAttempt .building
  | build {s : ClassState σ} {instanceState : σ} {policies : Policy.Source} {log : Log}
      {answer : Answer σ} {setting : Setting σ}
      (h : (c.build caller.services caller.location).run ⟨s, instanceState, policies, log⟩
        = (answer, setting)) :
      Move c caller s .building setting.state (.built answer)
  | publish {s : ClassState σ} {runtime : Runtime σ} :
      Move c caller s (.publishing runtime) (s.publish runtime)
        (.declaring ((s.publish runtime).runtime.getD runtime))
  | declare {s : ClassState σ} {runtime : Runtime σ} :
      Move c caller s (.declaring runtime) s.markReady (.leaving (.ok runtime))
  | record {s : ClassState σ} {e : ServiceError} :
      Move c caller s (.recording e) (s.fail e) (.leaving (.error (.failed e.replay)))
  | unlock {s : ClassState σ} {answer : Answer σ} :
      Move c caller s (.leaving answer) s (.returned answer)

/-- Every step brings a use nearer to its end. -/
theorem Move.remaining_lt {c : HandlerClass σ} {caller : Caller} {s s' : ClassState σ}
    {p p' : Phase σ} (h : Move c caller s p s' p') : p'.remaining < p.remaining := by
  cases h with
  | @notReady locked => cases locked <;> simp [Phase.remaining, Phase.unsettled]
  | @ready locked => cases locked <;> simp [Phase.remaining]
  | @fetch locked => cases locked <;> simp [Phase.remaining, Phase.found]
  | @miss locked => cases locked <;> simp [Phase.remaining, Phase.unsettled]
  | @build _ _ _ answer =>
      rcases answer with (e | reason) | runtime <;> simp [Phase.remaining, Phase.built]
  | _ => simp [Phase.remaining]

/-! ## A use that nothing interrupts -/

section

variable (c : HandlerClass σ) (caller : Caller)

inductive Moves : ClassState σ → Phase σ → ClassState σ → Phase σ → Prop where
  | refl {s : ClassState σ} {p : Phase σ} : Moves s p s p
  | head {s s' last : ClassState σ} {p p' q : Phase σ} (move : Move c caller s p s' p')
      (rest : Moves s' p' last q) : Moves s p last q

variable {c caller}

theorem Moves.trans {s s' last : ClassState σ} {p p' q : Phase σ} (h : Moves c caller s p s' p')
    (hrest : Moves c caller s' p' last q) : Moves c caller s p last q := by
  induction h with
  | refl => exact hrest
  | head move _ ih => exact .head move (ih hrest)

/-- Without a runtime to be found, a use gets as far as the look for a failure. -/
theorem moves_to_checking {s : ClassState σ} (h : s.usable? = none) :
    Moves c caller s (.looking false) s .checking := by
  cases hready : s.ready with
  | false =>
      refine .head (.notReady hready) (.head .lock ?_)
      exact .head (.notReady hready) .refl
  | true =>
      have hnone : s.runtime = none := by simpa [ClassState.usable?, hready] using h
      refine .head (.ready hready) (.head (.miss hnone) (.head .lock ?_))
      exact .head (.ready hready) (.head (.miss hnone) .refl)

/-- `ensure` does what the steps of one use do when nothing interrupts them.  A runtime that stands
published without being ready would be kept by the steps and not by `ensure`; no step ever leaves
one. -/
theorem moves_ensure (caller : Caller) {setting setting' : Setting σ} {answer : Answer σ}
    (hcell : setting.state.ready = false → setting.state.runtime = none)
    (h : (c.ensure caller.services caller.location).run setting = (answer, setting')) :
    Moves c caller setting.state (.looking false) setting'.state (.returned answer) := by
  rw [c.ensure_run] at h
  cases hruntime : setting.state.usable? with
  | some runtime =>
      simp only [ClassState.settled?, hruntime] at h
      obtain ⟨rfl, rfl⟩ := Prod.mk.inj h
      obtain ⟨hready, hsome⟩ : setting.state.ready = true ∧
          setting.state.runtime = some runtime := by
        simpa [ClassState.usable?] using hruntime
      exact .head (.ready hready) (.head (.fetch hsome) .refl)
  | none =>
      refine (moves_to_checking hruntime).trans ?_
      cases hfailure : setting.state.failure with
      | some e =>
          simp only [ClassState.settled?, hruntime, hfailure] at h
          obtain ⟨rfl, rfl⟩ := Prod.mk.inj h
          exact .head (.refused hfailure) (.head .unlock .refl)
      | none =>
          simp only [ClassState.settled?, hruntime, hfailure] at h
          refine .head (.untried hfailure) (.head .count ?_)
          have hcells := (c.leaves_build caller.services caller.location
            { setting with state := setting.state.beginAttempt }).cells
          have hempty : setting.state.runtime = none := by
            cases hready : setting.state.ready with
            | false => exact hcell hready
            | true => simpa [ClassState.usable?, hready] using hruntime
          rcases hbuild : (c.build caller.services caller.location).run
            { setting with state := setting.state.beginAttempt } with ⟨result, between⟩
          apply Moves.head (.build hbuild)
          rw [hbuild] at hcells
          rw [c.setUp_run hbuild] at h
          rcases result with (e | reason) | runtime
          · obtain ⟨rfl, rfl⟩ := Prod.mk.inj h
            exact .head .record (.head .unlock .refl)
          · obtain ⟨rfl, rfl⟩ := Prod.mk.inj h
            exact .head .unlock .refl
          · obtain ⟨rfl, rfl⟩ := Prod.mk.inj h
            have hnone : between.state.runtime = none := hcells.runtime.trans hempty
            have hstored : (between.state.publish runtime).runtime = some runtime := by
              simp [ClassState.publish, hnone]
            apply Moves.head .publish
            rw [hstored]
            exact .head .declare (.head .unlock .refl)

end

/-! ## All uses together -/

/-- A class with its uses; `κ` names them. -/
structure World (κ σ : Type) where
  state : ClassState σ := {}
  /-- Who has the lock of the class. -/
  holder : Option κ := none
  phase : κ → Phase σ := fun _ => .looking false
  /-- How often the setup steps have been run, by whichever use. -/
  builds : Nat := 0

section

variable {κ : Type} [DecidableEq κ] (c : HandlerClass σ) (callers : κ → Caller)

/-- Who has the lock after a use has gone from one phase to another. -/
def holderAfter (i : κ) (p p' : Phase σ) (holder : Option κ) : Option κ :=
  if p'.hasLock then some i else if p.hasLock then none else holder

def buildsAfter (p : Phase σ) (builds : Nat) : Nat :=
  match p with
  | .building => builds + 1
  | _ => builds

/-- Some use takes one step.  The lock can only be taken while nobody has it. -/
inductive Step : World κ σ → World κ σ → Prop where
  | of {w : World κ σ} (i : κ) {s' : ClassState σ} {p' : Phase σ}
      (move : Move c (callers i) w.state (w.phase i) s' p')
      (lock : p'.hasLock = true → (w.phase i).hasLock = true ∨ w.holder = none) :
      Step w {
        state := s'
        holder := holderAfter i (w.phase i) p' w.holder
        phase := Function.update w.phase i p'
        builds := buildsAfter (w.phase i) w.builds }

/-- A world that comes about from another by any interleaving of steps. -/
abbrev Reaches : World κ σ → World κ σ → Prop := Relation.ReflTransGen (Step c callers)

/-- A world that comes about while uses share a class that was new at first. -/
abbrev Reachable (w : World κ σ) : Prop := Reaches c callers {} w

end

end Gatehouse.Component
