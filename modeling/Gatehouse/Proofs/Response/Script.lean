import Gatehouse.Proofs.Effect
import Gatehouse.Response.Writer
import Mathlib.Tactic.Choose

/-!
# Scripts of operations

Finishers and recorded closures are functions on the writer.  Those that act only through its
operations are the ones that a script describes: a tree that looks at the writer, performs one
operation after another, and may go on however an operation ends.  A script tells which operations
are performed, and what the operations do to a writer is all that it does.
-/

namespace Gatehouse.Response

open Effect
open Http (Status)

/-- The public operations of a writer. -/
inductive Operation where
  | setStatus (status : Status)
  | setHeader (name value : String)
  | addHeader (name value : String)
  | clearHeader (name : String)
  | write (payload : Payload)
  | redirect (location : String) (status : Status)
  | finish (payload : Option Payload)
  | sendError (status : Status) (message : String)

namespace Operation

def edit : Operation → Edit Unit
  | .setStatus status => Edit.setStatus status
  | .setHeader name value => Edit.setHeader name value
  | .addHeader name value => Edit.addHeader name value
  | .clearHeader name => Edit.clearHeader name
  | .write payload => Edit.write payload
  | .redirect location status => Edit.redirect location status
  | .finish payload => Edit.finish payload
  | .sendError status message => Edit.sendError status message

def after (operations : List Operation) (w : Writer) : Writer :=
  operations.foldl (fun w operation => (w.edit operation.edit).2) w

@[simp]
theorem after_nil (w : Writer) : after [] w = w := rfl

@[simp]
theorem after_cons (operation : Operation) (rest : List Operation) (w : Writer) :
    after (operation :: rest) w = after rest (w.edit operation.edit).2 := rfl

end Operation

theorem run_ensureOpen {w : Writer} (h : w.finished = false) :
    Edit.ensureOpen.run w = (.ok (), w) := by
  rw [Edit.ensureOpen, run_bind_ok (run_get w)]
  simp [h]

theorem run_ensureOpen_of_finished {w : Writer} (h : w.finished = true) :
    Edit.ensureOpen.run w = (.error .alreadyFinished, w) := by
  rw [Edit.ensureOpen, run_bind_ok (run_get w)]
  simp [h]

/-- A finished response refuses every operation. -/
theorem Operation.edit_of_finished {w : Writer} (h : w.finished = true) (operation : Operation) :
    w.edit operation.edit = (.error .alreadyFinished, w) := by
  cases operation <;> exact run_bind_error (run_ensureOpen_of_finished h)

/-- Nothing happens to a finished response. -/
theorem Operation.after_of_finished {w : Writer} (h : w.finished = true)
    (operations : List Operation) : after operations w = w := by
  induction operations with
  | nil => rfl
  | cons operation rest ih =>
      rw [after_cons, edit_of_finished h operation]
      exact ih

/-- A response that gets finished is what the operation left that finished it. -/
theorem Operation.after_eq_of_finished {w : Writer} (hopen : w.finished = false)
    {operations : List Operation} (h : (after operations w).finished = true) :
    ∃ before operation rest, operations = before ++ operation :: rest ∧
      (after before w).finished = false ∧
      after operations w = ((after before w).edit operation.edit).2 := by
  induction operations generalizing w with
  | nil =>
      rw [after_nil, hopen] at h
      cases h
  | cons operation rest ih =>
      rw [after_cons] at h ⊢
      cases hnext : (w.edit operation.edit).2.finished with
      | true => exact ⟨[], operation, rest, rfl, hopen, after_of_finished hnext rest⟩
      | false =>
          obtain ⟨before, last, tail, rfl, hbefore, hlast⟩ := ih hnext h
          exact ⟨operation :: before, last, tail, rfl, hbefore, hlast⟩

/-! ## Scripts -/

/-- What an author of operations can do with a writer. -/
inductive Script (α : Type) where
  | done (value : α)
  | fail (error : TransportError)
  | look (next : Writer → Script α)
  | perform (operation : Operation) (next : Except TransportError Unit → Script α)

namespace Script

variable {α β : Type}

def ending : Except TransportError α → Script α
  | .ok value => .done value
  | .error error => .fail error

def run : Script α → Writer → Except TransportError α × Writer
  | .done value, w => (.ok value, w)
  | .fail error, w => (.error error, w)
  | .look next, w => (next w).run w
  | .perform operation next, w =>
    (next (w.edit operation.edit).1).run (w.edit operation.edit).2

/-- The operations that a script performs on a writer, failed ones among them. -/
def trace : Script α → Writer → List Operation
  | .done _, _ | .fail _, _ => []
  | .look next, w => (next w).trace w
  | .perform operation next, w =>
    operation :: (next (w.edit operation.edit).1).trace (w.edit operation.edit).2

/-- A script leaves what its operations leave. -/
theorem run_eq_after (script : Script α) (w : Writer) :
    (script.run w).2 = Operation.after (script.trace w) w := by
  induction script generalizing w with
  | done value => rfl
  | fail error => rfl
  | look next ih => exact ih w w
  | perform operation next ih => exact ih _ _

def bind : Script α → (α → Script β) → Script β
  | .done value, next => next value
  | .fail error, _ => .fail error
  | .look first, next => .look fun w => (first w).bind next
  | .perform operation first, next => .perform operation fun answer => (first answer).bind next

/-- How a script goes on from a result. -/
def resume (next : α → Script β) : Except TransportError α × Writer →
    Except TransportError β × Writer
  | (.ok value, w) => (next value).run w
  | (.error error, w) => (.error error, w)

theorem run_bind (script : Script α) (next : α → Script β) (w : Writer) :
    (script.bind next).run w = resume next (script.run w) := by
  induction script generalizing w with
  | done value => rfl
  | fail error => rfl
  | look first ih => exact ih w w
  | perform operation first ih => exact ih _ _

def Describes (script : Script α) (e : Edit α) : Prop := ∀ w : Writer, w.edit e = script.run w

end Script

/-- The edit acts only through operations of the writer. -/
def Scripted {α : Type} (e : Edit α) : Prop := ∃ script : Script α, script.Describes e

namespace Scripted

variable {α β : Type}

theorem pure (value : α) : Scripted (pure value : Edit α) := ⟨.done value, fun _ => rfl⟩

theorem throw (error : TransportError) : Scripted (throw error : Edit α) :=
  ⟨.fail error, fun _ => rfl⟩

theorem operation (o : Operation) : Scripted o.edit := by
  refine ⟨.perform o Script.ending, fun w => ?_⟩
  rw [Script.run]
  rcases w.edit o.edit with ⟨error | value, w'⟩ <;> rfl

/-- Looking at the writer is no operation. -/
theorem look {next : Writer → Edit α} (h : ∀ w, Scripted (next w)) :
    Scripted (get >>= next) := by
  choose script hscript using h
  refine ⟨.look script, fun w => ?_⟩
  exact (run_bind_ok (run_get w)).trans (hscript w w)

theorem bind {first : Edit α} {next : α → Edit β} (hfirst : Scripted first)
    (hnext : ∀ value, Scripted (next value)) : Scripted (first >>= next) := by
  obtain ⟨script, hscript⟩ := hfirst
  choose scripts hscripts using hnext
  refine ⟨script.bind scripts, fun w => ?_⟩
  rw [Script.run_bind, ← hscript w]
  rcases hrun : w.edit first with ⟨error | value, w'⟩
  · exact run_bind_error hrun
  · exact (run_bind_ok hrun).trans (hscripts value w')

end Scripted

end Gatehouse.Response
