import Gatehouse.Proofs.Response.Completion

/-!
# Refused operations

An operation does everything that can fail before it changes the response, so that a refused one
leaves the response as it was.  One operation does not keep to this: an error response takes over
its status and drops the body before the codec has seen its envelope.
-/

namespace Gatehouse.Response

open Effect
open Http (Status)

/-! ## Edits that leave nothing behind when they fail -/

def Atomic {α : Type} (e : Edit α) : Prop :=
  ∀ (w : Writer) (error : TransportError) (left : Writer),
    w.edit e = (.error error, left) → left = w

namespace Atomic

variable {α β : Type}

theorem throw (error : TransportError) : Atomic (throw error : Edit α) := by
  rintro w reason left ⟨rfl, rfl⟩
  rfl

theorem of_modify (change : Writer → Writer) : Atomic (modify change : Edit PUnit) := by
  intro w error left hrun
  cases hrun

/-- What has only been looked at before is still as it was. -/
theorem after_look {first : Edit α} {next : α → Edit β} (hfirst : Leaves Eq first)
    (hnext : ∀ value, Atomic (next value)) : Atomic (first >>= next) := by
  intro w error left hrun
  have hsame := hfirst w
  rw [Writer.edit] at hrun
  rcases hstep : first.run w with ⟨reason | value, w'⟩
  · rw [run_bind_error hstep] at hrun
    cases hrun
    rw [hstep] at hsame
    exact hsame.symm
  · rw [run_bind_ok hstep] at hrun
    rw [hstep] at hsame
    exact (hnext value w' error left hrun).trans hsame.symm

/-- A change that cannot fail may come last. -/
theorem before_modify {first : Edit PUnit} (hfirst : Atomic first) (change : Writer → Writer) :
    Atomic (do first; modify change) := by
  intro w error left hrun
  rw [Writer.edit] at hrun
  rcases hstep : first.run w with ⟨reason | value, w'⟩
  · rw [run_bind_error hstep] at hrun
    cases hrun
    exact hfirst w error left hstep
  · rw [run_bind_ok hstep] at hrun
    cases hrun

theorem append (payload : Payload) : Atomic (Edit.append payload) := by
  intro w error left hrun
  have hadds := Adds.append payload w
  rw [show (Edit.append payload).run w = _ from hrun] at hadds
  cases hadds
  rfl

theorem finish (payload : Option Payload) : Atomic (Edit.finish payload) := by
  refine after_look leaves_ensureOpen fun _ => ?_
  cases payload with
  | none => exact of_modify _
  | some payload => exact before_modify (append payload) _

/-- A redirection judges its location first; on an open response nothing else can fail. -/
theorem redirect (location : String) (status : Status) :
    Atomic (Edit.redirect location status) := by
  intro w error left hrun
  rw [Writer.edit] at hrun
  cases hfinished : w.finished with
  | true =>
      have hrefused := Operation.edit_of_finished hfinished (.redirect location status)
      rw [show (Edit.redirect location status).run w = _ from hrefused] at hrun
      cases hrun
      rfl
  | false =>
      rw [Edit.redirect, run_bind_ok (run_ensureOpen hfinished)] at hrun
      cases hlocation : Http.headerValue? (Text.Utf8.encode location) with
      | none =>
          rw [hlocation] at hrun
          exact throw _ w error left hrun
      | some value =>
          rw [hlocation] at hrun
          let redirected : Writer :=
            { w with status, headers := w.headers.insert "location" value }
          have hopen : redirected.finished = false := hfinished
          change (Edit.finish none).run redirected = _ at hrun
          rw [run_finish_none hopen] at hrun
          cases hrun

end Atomic

/-- Every operation but the error response is refused before it has changed anything. -/
theorem Operation.atomic {operation : Operation} (h : operation.drops = false) :
    Atomic operation.edit := by
  cases operation with
  | setStatus status => exact .after_look leaves_ensureOpen fun _ => .of_modify _
  | setHeader name value =>
      refine .after_look leaves_ensureOpen fun _ => ?_
      exact .after_look (leaves_checkHeader name value) fun _ => .of_modify _
  | addHeader name value =>
      refine .after_look leaves_ensureOpen fun _ => ?_
      exact .after_look (leaves_checkHeader name value) fun _ => .of_modify _
  | clearHeader name => exact .after_look leaves_ensureOpen fun _ => .of_modify _
  | write payload => exact .after_look leaves_ensureOpen fun _ => .append payload
  | redirect location status => exact .redirect location status
  | finish payload => exact .finish payload
  | sendError status message => cases h

/-! ## The error response -/

def errorEnvelope (status : Status) (message : String) : Json :=
  (ServiceError.http status message).envelope none

/-- An error response takes over the status and drops the body, whether the codec accepts its
envelope or not. -/
theorem edit_sendError {w : Writer} (hopen : w.finished = false) (status : Status)
    (message : String) :
    w.edit (Edit.sendError status message) =
      match w.codec.encode (errorEnvelope status message) with
      | .error reason => (.error (.codec reason), { w with status, body := [] })
      | .ok bytes =>
        (.ok (), { ({ w with status, body := [] } : Writer).withEncoded bytes with
          finished := true }) := by
  have hclean : (errorEnvelope status message).strip = errorEnvelope status message :=
    Json.strip_of_clean _ (ServiceError.hasDiagnostics_envelope _ none)
  have hrun := run_finish_structured (w := { w with status, body := [] }) hopen
    (errorEnvelope status message)
  rw [hclean] at hrun
  rw [Writer.edit, Edit.sendError, run_bind_ok (run_ensureOpen hopen)]
  exact hrun

/-- A refused operation leaves the response as it was, unless it is an error response.  That one is
refused only where the codec refuses its envelope, and then the status is already that of the error
and the body is gone. -/
theorem refused_operation_leaves_response (w : Writer) (hopen : w.finished = false)
    (operation : Operation) (error : TransportError) (left : Writer)
    (h : w.edit operation.edit = (.error error, left)) :
    ((∀ status message, operation ≠ .sendError status message) → left = w) ∧
    ∀ status message, operation = .sendError status message →
      (∃ reason, w.codec.encode (errorEnvelope status message) = .error reason ∧
        error = .codec reason) ∧ left = { w with status, body := [] } := by
  constructor
  · intro hother
    refine Operation.atomic ?_ w error left h
    cases operation with
    | sendError status message => exact absurd rfl (hother status message)
    | _ => rfl
  · rintro status message rfl
    rw [Operation.edit, edit_sendError hopen] at h
    cases hencode : w.codec.encode (errorEnvelope status message) with
    | ok bytes =>
        rw [hencode] at h
        cases h
    | error reason =>
        rw [hencode] at h
        cases h
        exact ⟨⟨reason, rfl, rfl⟩, rfl⟩

def refusingCodec : Codec :=
  { Codec.json with
    encode := fun _ => .error (.encode "refused")
    decode := fun _ => .error (.decode "refused") }

def draftResponse : Writer := { Writer.new refusingCodec with body := [100] }

theorem draftResponse_loses_its_body :
    draftResponse.finished = false ∧
    draftResponse.edit (Operation.sendError ⟨503⟩ "down").edit =
      (.error (.codec (.encode "refused")), { draftResponse with status := ⟨503⟩, body := [] }) ∧
    ({ draftResponse with status := ⟨503⟩, body := [] } : Writer) ≠ draftResponse := by
  refine ⟨rfl, rfl, fun h => ?_⟩
  cases congrArg Writer.body h

theorem draftResponse_keeps_its_body :
    draftResponse.finished = false ∧
    draftResponse.edit (Operation.write (.structured .null)).edit =
      (.error (.codec (.encode "refused")), draftResponse) := by
  have hopen : draftResponse.finished = false := rfl
  let left := (draftResponse.edit (Operation.write (.structured .null)).edit).2
  have hrun : draftResponse.edit (Operation.write (.structured .null)).edit =
      (.error (.codec (.encode "refused")), left) := rfl
  have hleft := (refused_operation_leaves_response draftResponse hopen _ _ _ hrun).1 nofun
  exact ⟨hopen, hleft ▸ hrun⟩

end Gatehouse.Response
