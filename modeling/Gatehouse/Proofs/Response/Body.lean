import Gatehouse.Proofs.Json.Strip
import Gatehouse.Proofs.Response.Script

/-!
# What stands in a body

A body is put together from the payloads that operations have added and no error response has
dropped.  Bytes and texts stand in it as they are; a structured value stands there as the codec
writes it once it is stripped.  This holds after any operations, in any order, failed ones among
them.
-/

namespace Gatehouse.Response

open Effect
open Http (Status)

/-- The bytes as which a payload stands in a body. -/
inductive Chunk (codec : Codec) : Payload → List UInt8 → Prop where
  | bytes {bytes : List UInt8} : Chunk codec (.bytes bytes) bytes
  | text {text : String} : Chunk codec (.text text) (Text.Utf8.encode text)
  | structured {value : Json} {bytes : List UInt8} (clean : value.strip.hasDiagnostics = false)
      (encoded : codec.encode value.strip = .ok bytes) : Chunk codec (.structured value) bytes

/-- The body consists of the chunks of the payloads, in this order. -/
inductive Assembled (codec : Codec) : List Payload → List UInt8 → Prop where
  | nothing : Assembled codec [] []
  | more {payloads : List Payload} {body chunk : List UInt8} {payload : Payload}
      (before : Assembled codec payloads body) (last : Chunk codec payload chunk) :
      Assembled codec (payloads ++ [payload]) (body ++ chunk)

namespace Operation

def added : Operation → List Payload
  | .write payload | .finish (some payload) => [payload]
  | .sendError status message => [.structured ((ServiceError.http status message).envelope none)]
  | _ => []

def drops : Operation → Bool
  | .sendError .. => true
  | _ => false

/-- The payloads that stand in the body after an operation.  An error response whose body cannot be
encoded has dropped what stood before. -/
def standing (operation : Operation) (w : Writer) (payloads : List Payload) : List Payload :=
  let kept := if operation.drops && !w.finished then [] else payloads
  match (w.edit operation.edit).1 with
  | .ok () => kept ++ operation.added
  | .error _ => kept

/-- The payloads that stand in the body after operations. -/
def standingAfter : List Operation → Writer → List Payload → List Payload
  | [], _, payloads => payloads
  | operation :: rest, w, payloads =>
    standingAfter rest (w.edit operation.edit).2 (operation.standing w payloads)

end Operation

/-! ## Operations that add a payload -/

/-- The writer with a structured value, as encoded, at the end of its body. -/
def Writer.withEncoded (w : Writer) (bytes : List UInt8) : Writer :=
  { w with
    headers := w.headers.insert "content-type" (Text.Utf8.encode w.codec.contentType)
    body := w.body ++ bytes }

theorem run_append_structured (value : Json) (w : Writer) :
    (Edit.append (.structured value)).run w =
      match w.codec.encode value.strip with
      | .error error => (.error (.codec error), w)
      | .ok bytes => (.ok (), w.withEncoded bytes) := by
  change (match w.codec.encode value.strip with
    | .error error => (throw (TransportError.codec error) : Edit Unit)
    | .ok bytes => set (w.withEncoded bytes)).run w = _
  cases w.codec.encode value.strip <;> rfl

theorem run_finish_none {w : Writer} (hopen : w.finished = false) :
    (Edit.finish none).run w = (.ok (), { w with finished := true }) := by
  rw [Edit.finish, run_bind_ok (run_ensureOpen hopen)]
  rfl

section

variable {w w' : Writer} (hopen : w.finished = false) {payload : Payload}

include hopen

theorem run_finish_of_ok (h : (Edit.append payload).run w = (.ok (), w')) :
    (Edit.finish (some payload)).run w = (.ok (), { w' with finished := true }) := by
  rw [Edit.finish, run_bind_ok (run_ensureOpen hopen), run_bind_ok h]
  rfl

theorem run_finish_of_error {error : TransportError}
    (h : (Edit.append payload).run w = (.error error, w')) :
    (Edit.finish (some payload)).run w = (.error error, w') := by
  rw [Edit.finish, run_bind_ok (run_ensureOpen hopen)]
  exact run_bind_error h

/-- A response is finished once its completion has succeeded. -/
theorem finished_of_finish {payload : Option Payload}
    (h : (Edit.finish payload).run w = (.ok (), w')) : w'.finished = true := by
  cases payload with
  | none =>
      rw [run_finish_none hopen] at h
      cases h
      rfl
  | some payload =>
      rcases happend : (Edit.append payload).run w with ⟨error | ⟨⟩, next⟩
      · rw [run_finish_of_error hopen happend] at h
        cases h
      · rw [run_finish_of_ok hopen happend] at h
        cases h
        rfl

theorem run_finish_structured (value : Json) :
    (Edit.finish (some (.structured value))).run w =
      match w.codec.encode value.strip with
      | .error error => (.error (.codec error), w)
      | .ok bytes => (.ok (), { w.withEncoded bytes with finished := true }) := by
  have happend := run_append_structured value w
  cases hencode : w.codec.encode value.strip with
  | error error =>
      rw [hencode] at happend
      exact run_finish_of_error hopen happend
  | ok bytes =>
      rw [hencode] at happend
      exact run_finish_of_ok hopen happend

end

/-- A payload has been added whole to what stood in a writer, or refused by the codec. -/
inductive Adds (payload : Payload) (base : Writer) :
    Except TransportError Unit × Writer → Prop where
  | added {bytes : List UInt8} {w : Writer} (chunk : Chunk base.codec payload bytes)
      (codec : w.codec = base.codec) (body : w.body = base.body ++ bytes) :
      Adds payload base (.ok (), w)
  | refused {error : TransportError} : Adds payload base (.error error, base)

namespace Adds

theorem append (payload : Payload) (w : Writer) :
    Adds payload w ((Edit.append payload).run w) := by
  cases payload with
  | bytes bytes => exact .added .bytes rfl rfl
  | text text => exact .added .text rfl rfl
  | structured value =>
      rw [run_append_structured]
      cases hencode : w.codec.encode value.strip with
      | error error => exact .refused
      | ok bytes => exact .added (.structured (Json.hasDiagnostics_strip value) hencode) rfl rfl

variable {w : Writer} (hopen : w.finished = false)

include hopen

theorem write (payload : Payload) : Adds payload w ((Edit.write payload).run w) := by
  rw [Edit.write, run_bind_ok (run_ensureOpen hopen)]
  exact append payload w

theorem finish (payload : Payload) : Adds payload w ((Edit.finish (some payload)).run w) := by
  have happend := append payload w
  rcases hrun : (Edit.append payload).run w with ⟨error | ⟨⟩, w'⟩
  · rw [hrun] at happend
    cases happend
    rw [run_finish_of_error hopen hrun]
    exact .refused
  · rw [hrun] at happend
    cases happend with
    | added chunk codec body =>
        rw [run_finish_of_ok hopen hrun]
        exact .added chunk codec body

/-- An error response adds its envelope to a body that it has emptied. -/
theorem sendError (status : Status) (message : String) :
    Adds (.structured ((ServiceError.http status message).envelope none))
      { w with status, body := [] } ((Edit.sendError status message).run w) := by
  let cleared : Writer := { w with status, body := [] }
  have hcleared : cleared.finished = false := hopen
  rw [Edit.sendError, run_bind_ok (run_ensureOpen hopen)]
  exact finish hcleared _

end Adds

/-! ## Operations that add nothing -/

/-- The body is what it was, and so is the codec that has written it. -/
structure SameBody (w w' : Writer) : Prop where
  codec : w'.codec = w.codec
  body : w'.body = w.body

instance : IsPreorder Writer SameBody where
  refl _ := ⟨rfl, rfl⟩
  trans _ _ _ h h' := ⟨h'.codec.trans h.codec, h'.body.trans h.body⟩

section

variable {R : Writer → Writer → Prop} [IsPreorder Writer R]

theorem leaves_ensureOpen : Leaves R Edit.ensureOpen := by
  refine Leaves.bind .get fun w => ?_
  cases w.finished with
  | true => exact .throw _
  | false => exact .pure _

theorem leaves_checkHeader (name value : String) : Leaves R (Edit.checkHeader name value) := by
  rw [Edit.checkHeader]
  cases Http.headerName? name with
  | none => exact .throw _
  | some lower =>
      cases Http.headerValue? (Text.Utf8.encode value) with
      | none => exact .throw _
      | some bytes => exact .pure _

end

namespace SameBody

theorem finish_none : Leaves SameBody (Edit.finish none) := by
  change Leaves SameBody
    (Edit.ensureOpen >>= fun _ => modify fun w => { w with finished := true })
  exact .bind leaves_ensureOpen fun _ => .modify fun _ => ⟨rfl, rfl⟩

theorem redirect (location : String) (status : Status) :
    Leaves SameBody (Edit.redirect location status) := by
  rw [Edit.redirect]
  refine .bind leaves_ensureOpen fun _ => ?_
  cases Http.headerValue? (Text.Utf8.encode location) with
  | none => exact .throw _
  | some value => exact .bind (.modify fun _ => ⟨rfl, rfl⟩) fun _ => finish_none

end SameBody

/-- An operation without a payload leaves the body alone. -/
theorem Operation.leaves_body {operation : Operation} (h : operation.added = []) :
    Leaves SameBody operation.edit := by
  cases operation with
  | setStatus status =>
      exact .bind leaves_ensureOpen fun _ => .modify fun _ => ⟨rfl, rfl⟩
  | setHeader name value =>
      refine .bind leaves_ensureOpen fun _ => .bind (leaves_checkHeader name value) fun _ => ?_
      exact .modify fun _ => ⟨rfl, rfl⟩
  | addHeader name value =>
      refine .bind leaves_ensureOpen fun _ => .bind (leaves_checkHeader name value) fun _ => ?_
      exact .modify fun _ => ⟨rfl, rfl⟩
  | clearHeader name =>
      exact .bind leaves_ensureOpen fun _ => .modify fun _ => ⟨rfl, rfl⟩
  | redirect location status => exact SameBody.redirect location status
  | finish payload =>
      cases payload with
      | none => exact SameBody.finish_none
      | some payload => cases h
  | write payload => cases h
  | sendError status message => cases h

/-! ## Any operation -/

/-- Nothing comes to stand in the body or falls out of it. -/
theorem Operation.standing_of_added_nil {operation : Operation} (h : operation.added = [])
    (w : Writer) (payloads : List Payload) : operation.standing w payloads = payloads := by
  have hkept : operation.drops = false := by
    cases operation <;> first | rfl | cases h
  rw [standing, hkept, h]
  rcases (w.edit operation.edit).1 with error | value <;> simp

/-- The body is put together from the payloads that stand in it after an operation has added one to
what it had kept. -/
theorem Operation.assembled_of_adds {w base : Writer} {payloads : List Payload}
    {operation : Operation} {payload : Payload}
    (h : Adds payload base (w.edit operation.edit)) (hcodec : base.codec = w.codec)
    (hadded : operation.added = [payload])
    (hkept : Assembled w.codec (if operation.drops && !w.finished then [] else payloads)
      base.body) :
    (w.edit operation.edit).2.codec = w.codec ∧
      Assembled w.codec (operation.standing w payloads) (w.edit operation.edit).2.body := by
  rw [standing]
  rcases hrun : w.edit operation.edit with ⟨error | ⟨⟩, w'⟩
  · rw [hrun] at h
    cases h
    exact ⟨hcodec, hkept⟩
  · rw [hrun] at h
    cases h with
    | added chunk codec body =>
        rw [hcodec] at chunk
        simp only [hadded, body]
        exact ⟨codec.trans hcodec, hkept.more chunk⟩

/-- Operations keep the codec, and the body stays put together from the payloads that stand in
it. -/
theorem Operation.assembled {w : Writer} {payloads : List Payload}
    (h : Assembled w.codec payloads w.body) (operation : Operation) :
    (w.edit operation.edit).2.codec = w.codec ∧
      Assembled w.codec (operation.standing w payloads) (w.edit operation.edit).2.body := by
  by_cases hfinished : w.finished = true
  · rw [standing, edit_of_finished hfinished operation, hfinished]
    simpa using h
  · have hopen : w.finished = false := by simpa using hfinished
    by_cases hadded : operation.added = []
    · have hsame : SameBody w (w.edit operation.edit).2 := leaves_body hadded w
      rw [standing_of_added_nil hadded, hsame.body]
      exact ⟨hsame.codec, h⟩
    · cases operation with
      | write payload => exact assembled_of_adds (Adds.write hopen payload) rfl rfl h
      | finish payload =>
          cases payload with
          | none => exact absurd rfl hadded
          | some payload => exact assembled_of_adds (Adds.finish hopen payload) rfl rfl h
      | sendError status message =>
          have hadds : Adds _ { w with status, body := [] }
              (w.edit (sendError status message).edit) := Adds.sendError hopen status message
          apply assembled_of_adds hadds rfl rfl
          rw [hopen]
          exact .nothing
      | _ => exact absurd rfl hadded

theorem Operation.assembled_after {w : Writer} {payloads : List Payload}
    (h : Assembled w.codec payloads w.body) (operations : List Operation) :
    Assembled w.codec (standingAfter operations w payloads) (after operations w).body := by
  induction operations generalizing w payloads with
  | nil => exact h
  | cons operation rest ih =>
      obtain ⟨hcodec, hstep⟩ := assembled h operation
      rw [← hcodec] at hstep ⊢
      exact ih hstep

/-- The body that a script makes of an empty response. -/
theorem Script.assembled {α : Type} {script : Script α} {e : Edit α} (h : script.Describes e)
    (codec : Codec) :
    Assembled codec (Operation.standingAfter (script.trace (.new codec)) (.new codec) [])
      ((Writer.new codec).edit e).2.body := by
  rw [h, script.run_eq_after]
  exact Operation.assembled_after (w := .new codec) .nothing _

end Gatehouse.Response
