import Gatehouse.Proofs.Response.Body
import Gatehouse.Response.Result

/-!
# Completing a response

Every way to complete a response, be it a result of any shape or the envelope of an error, acts
through the operations of the writer, as long as the closures recorded in a result do.  What a
result carries is stripped before anything else looks at it.
-/

namespace Gatehouse

/-- Envelopes of errors have no diagnostic members. -/
theorem ServiceError.hasDiagnostics_envelope (e : ServiceError) (requestId : Option String) :
    (e.envelope requestId).hasDiagnostics = false := by
  cases e with
  | authorization method =>
      cases method <;> cases requestId <;>
        simp [envelope, details, Json.hasDiagnostics, Json.membersHaveDiagnostics,
          Json.isDiagnostic, Json.execInfoKey, Json.callStackKey]
  | _ =>
      cases requestId <;>
        simp [envelope, details, Json.hasDiagnostics, Json.membersHaveDiagnostics,
          Json.isDiagnostic, Json.execInfoKey, Json.callStackKey]

namespace Response

open Effect
open Http (Status)

/-! ## Stripped results -/

def Payload.Clean : Payload → Prop
  | .structured value => value.hasDiagnostics = false
  | _ => True

def Action.Clean : Action → Prop
  | .write payload | .finish (some payload) => payload.Clean
  | _ => True

structure Deferred.Clean (log : Deferred) : Prop where
  payload : ∀ payload, log.payload = some payload → payload.Clean
  actions : ∀ action ∈ log.actions, action.Clean

def MethodResult.Clean : MethodResult → Prop
  | .value v => v.hasDiagnostics = false
  | .deferred log => log.Clean
  | _ => True

theorem Payload.clean_strip (payload : Payload) : payload.strip.Clean := by
  cases payload with
  | structured value => exact Json.hasDiagnostics_strip value
  | _ => exact trivial

theorem Action.clean_strip (action : Action) : action.strip.Clean := by
  cases action with
  | write payload => exact payload.clean_strip
  | finish payload =>
      cases payload with
      | none => exact trivial
      | some payload => exact payload.clean_strip
  | _ => exact trivial

theorem Deferred.clean_strip (log : Deferred) : log.strip.Clean where
  payload := by
    intro payload h
    obtain ⟨original, -, rfl⟩ := Option.map_eq_some_iff.mp h
    exact original.clean_strip
  actions := by
    intro action h
    obtain ⟨original, -, rfl⟩ := List.mem_map.mp h
    exact original.clean_strip

theorem MethodResult.clean_strip (result : MethodResult) : result.strip.Clean := by
  cases result with
  | value value => exact Json.hasDiagnostics_strip value
  | deferred log => exact log.clean_strip
  | _ => exact trivial

/-! ## Completion by operations -/

/-- The closures that the log has recorded act through operations. -/
def Deferred.Scripted (log : Deferred) : Prop :=
  ∀ script, Action.custom script ∈ log.actions → Response.Scripted script

/-- The closures that the result has recorded, if any, act through operations. -/
def MethodResult.Scripted : MethodResult → Prop
  | .deferred log => log.Scripted
  | _ => True

theorem Deferred.scripted_strip {log : Deferred} (h : log.Scripted) : log.strip.Scripted := by
  intro script hscript
  obtain ⟨original, hmem, hstrip⟩ := List.mem_map.mp hscript
  cases original with
  | custom other =>
      obtain rfl : other = script := Action.custom.inj hstrip
      exact h other hmem
  | _ => cases hstrip

theorem MethodResult.scripted_strip {result : MethodResult} (h : result.Scripted) :
    result.strip.Scripted := by
  cases result with
  | deferred log => exact log.scripted_strip h
  | _ => exact trivial

namespace Scripted

theorem ensureOpen : Scripted Edit.ensureOpen := by
  refine look fun w => ?_
  cases w.finished with
  | true => exact .throw _
  | false => exact .pure _

theorem action {a : Action} (h : ∀ script, a = .custom script → Scripted script) :
    Scripted a.apply := by
  cases a with
  | setStatus status => exact operation (.setStatus status)
  | setHeader name value => exact operation (.setHeader name value)
  | addHeader name value => exact operation (.addHeader name value)
  | clearHeader name => exact operation (.clearHeader name)
  | write payload => exact operation (.write payload)
  | redirect location status => exact operation (.redirect location status)
  | finish payload => exact operation (.finish payload)
  | sendError status message => exact operation (.sendError status message)
  | custom script => exact h script rfl

theorem applyAll {actions : List Action}
    (h : ∀ script, .custom script ∈ actions → Scripted script) :
    Scripted (applyAll actions) := by
  induction actions with
  | nil => exact .pure ()
  | cons first rest ih =>
      have hfirst : ∀ script, first = .custom script → Scripted script := by
        rintro script rfl
        exact h script List.mem_cons_self
      refine .bind (.action hfirst) fun _ => ih fun script hscript => ?_
      exact h script (List.mem_cons_of_mem first hscript)

theorem replay {log : Deferred} (h : log.Scripted) : Scripted log.replay := by
  rw [Deferred.replay]
  refine .bind ensureOpen fun _ => ?_
  have hrest : Scripted (do
      Response.applyAll log.actions
      if !(← get).finished then Edit.finish log.payload) := by
    refine .bind (.applyAll h) fun _ => .look fun w => ?_
    cases w.finished with
    | true => exact .pure ()
    | false => exact operation (.finish log.payload)
  cases log.status with
  | none => exact hrest
  | some status => exact .bind (operation (.setStatus status)) fun _ => hrest

theorem finishRaw (bytes : List UInt8) : Scripted (finishRaw bytes) :=
  .bind (operation (.setHeader "content-type" octetStream)) fun _ =>
    operation (.finish (some (.bytes bytes)))

/-- The rules for results act through operations. -/
theorem finish {result : MethodResult} (h : result.Scripted) (raw : Bool) :
    Scripted (result.finish raw) := by
  have hstrip := MethodResult.scripted_strip h
  have answered : ∀ {e : Edit Unit} (answer : Option Json), Scripted e →
      Scripted (do e; return answer) := fun _ he => .bind he fun _ => .pure _
  unfold MethodResult.finish
  cases hresult : result.strip with
  | deferred log =>
      rw [hresult] at hstrip
      exact answered none (.replay hstrip)
  | empty => exact answered none (operation (.finish none))
  | raw bytes => exact answered none (.finishRaw bytes)
  | text text =>
      cases raw with
      | true => exact answered none (.finishRaw _)
      | false => exact answered none (operation (.finish (some (.text text))))
  | value value =>
      cases raw with
      | false =>
          cases value <;> exact answered (some _) (operation (.finish (some (.structured _))))
      | true =>
          cases value with
          | str text => exact answered none (.finishRaw _)
          | _ =>
              refine .look fun w => ?_
              cases w.codec.encode _ with
              | error error => exact .bind (.throw _) fun _ => .pure _
              | ok bytes => exact .bind (.finishRaw bytes) fun _ => .pure _

end Scripted

/-! ## A value by the default rules -/

/-- What the default rules make of a value: nothing if the codec refuses it, and otherwise what the
codec makes of it once it is stripped.  Raw text is sent as it is. -/
inductive ValueBody (codec : Codec) (raw : Bool) (value : Json) : List UInt8 → Prop where
  | refused {error : CodecError} (h : codec.encode value.strip = .error error) :
      ValueBody codec raw value []
  | encoded {bytes : List UInt8} (clean : value.strip.hasDiagnostics = false)
      (h : codec.encode value.strip = .ok bytes) : ValueBody codec raw value bytes
  | text {text : String} (hraw : raw = true) (h : value.strip = .str text) :
      ValueBody codec raw value (Text.Utf8.encode text)

/-- Raw bytes complete an open response, announced as such. -/
theorem run_finishRaw {w : Writer} (hopen : w.finished = false) (bytes : List UInt8) :
    (finishRaw bytes).run w = (.ok (), { w with
      headers := w.headers.insert "content-type" (Text.Utf8.encode octetStream)
      body := w.body ++ bytes
      finished := true }) := by
  let announced : Writer :=
    { w with headers := w.headers.insert "content-type" (Text.Utf8.encode octetStream) }
  have hheader : (Edit.setHeader "content-type" octetStream).run w = (.ok (), announced) := by
    rw [Edit.setHeader, run_bind_ok (run_ensureOpen hopen)]
    rfl
  have happend : (Edit.append (.bytes bytes)).run announced =
      (.ok (), { announced with body := w.body ++ bytes }) := rfl
  rw [finishRaw, run_bind_ok hheader]
  exact run_finish_of_ok (w := announced) hopen happend

/-- Without a call for raw content, a value goes out as a structured payload. -/
theorem finish_value (value : Json) :
    (MethodResult.value value).finish false =
      (do Edit.finish (some (.structured value.strip)); return some value.strip) := by
  unfold MethodResult.finish
  rw [MethodResult.strip]
  cases value.strip <;> rfl

theorem valueBody_finish (codec : Codec) (raw : Bool) (value : Json) :
    ValueBody codec raw value
      ((Writer.new codec).edit ((MethodResult.value value).finish raw)).2.body := by
  have hclean := Json.hasDiagnostics_strip value
  cases raw with
  | false =>
      have hopen : (Writer.new codec).finished = false := rfl
      have hrun := run_finish_structured hopen value.strip
      rw [Json.strip_strip] at hrun
      rw [finish_value, Writer.edit]
      cases hencode : (Writer.new codec).codec.encode value.strip with
      | error error =>
          rw [hencode] at hrun
          rw [run_bind_error hrun]
          exact .refused hencode
      | ok bytes =>
          rw [hencode] at hrun
          rw [run_bind_ok hrun]
          exact .encoded hclean hencode
  | true =>
      have hraw (bytes : List UInt8) :
          ((do finishRaw bytes; return none : Edit (Option Json)).run
            (Writer.new codec)).2.body = bytes := by
        rw [run_bind_ok (run_finishRaw (w := .new codec) rfl bytes)]
        rfl
      cases hvalue : value.strip with
      | str text =>
          have hfinish : (MethodResult.value value).finish true =
              (do finishRaw (Text.Utf8.encode text); return none) := by
            unfold MethodResult.finish
            rw [MethodResult.strip, hvalue]
          rw [hfinish, Writer.edit, hraw]
          exact .text rfl hvalue
      | _ =>
          unfold MethodResult.finish
          rw [MethodResult.strip, hvalue, Writer.edit]
          simp only
          rw [run_bind_ok (run_get (Writer.new codec))]
          rw [← hvalue]
          cases hencode : (Writer.new codec).codec.encode value.strip with
          | error error => exact .refused hencode
          | ok bytes =>
              simp only
              rw [hraw]
              exact .encoded hclean hencode

end Response

end Gatehouse
