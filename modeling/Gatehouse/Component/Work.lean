import Gatehouse.RequestContext
import Gatehouse.Response.Result

/-!
# Work

Work is what a component's own code does on behalf of a request: it changes the component's state
and its own view of the request, takes time, and returns, raises an error or breaks down.  What has
been changed before an error stays changed.
-/

namespace Gatehouse.Component

/-- How a piece of a component's code ends. -/
inductive Ending (α : Type u) where
  | returned (value : α)
  | raised (error : Raised)
  /-- It broke down, for a reason that is not an error of the component. -/
  | panicked (reason : String)

/-- What a piece of work leaves behind. -/
structure Run (σ : Type) (α : Type u) where
  ending : Ending α
  state : σ
  context : RequestContext
  milliseconds : Nat := 0

/-- Code that works on a component's state and on a view of a request. -/
abbrev Work (σ : Type) (α : Type u) := σ → RequestContext → Run σ α

namespace Work

variable {σ : Type} {α β : Type u}

def done (value : α) : Work σ α := fun state context => ⟨.returned value, state, context, 0⟩

def raise (error : Raised) : Work σ α := fun state context => ⟨.raised error, state, context, 0⟩

/-- Work that takes the answer of a service operation for its own. -/
def ofExcept (answer : RequestContext → Except ServiceError α) : Work σ α := fun state context =>
  match answer context with
  | .ok value => ⟨.returned value, state, context, 0⟩
  | .error e => ⟨.raised (.typed [] e), state, context, 0⟩

/-- One piece of work after another; the second is left out if the first does not return. -/
def andThen (first : Work σ α) (second : α → Work σ β) : Work σ β := fun state context =>
  let run := first state context
  match run.ending with
  | .returned value =>
    let next := second value run.state run.context
    { next with milliseconds := run.milliseconds + next.milliseconds }
  | .raised error => { run with ending := .raised error }
  | .panicked reason => { run with ending := .panicked reason }

end Work

end Gatehouse.Component
