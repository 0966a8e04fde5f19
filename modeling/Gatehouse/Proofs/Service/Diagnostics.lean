import Gatehouse.Proofs.Service.Response

/-!
# Diagnostics stay inside

No structured value reaches a client with its diagnostic members, whichever way it takes into the
body: as a result or in a recorded operation, by the default rules or by a finisher, in an error
response or in the envelope of an error.
-/

namespace Gatehouse.Service

open Component (HandlerClass Method Work)
open Response

variable {σ : Type}

/-- A completion acts through operations if the finisher does and the result has recorded nothing
else. -/
theorem scripted_complete {method : Method σ} {state : σ} {context : RequestContext}
    {result : MethodResult} (hresult : result.Scripted)
    (hfinisher : ∀ finisher, method.finisher = some finisher →
      Scripted (finisher state context result.strip)) :
    Scripted (complete method state context result) := by
  rw [complete]
  cases hmethod : method.finisher with
  | none => exact .finish hresult context.rawContent
  | some finisher => exact .bind (hfinisher finisher hmethod) fun _ => .pure none

theorem complete_of_finisher {method : Method σ} {finisher : Component.Finisher σ}
    (h : method.finisher = some finisher) (state : σ) (context : RequestContext)
    (result : MethodResult) :
    complete method state context result =
      (do finisher state context result.strip; return none) := by
  rw [complete, h]

theorem complete_of_no_finisher {method : Method σ} (h : method.finisher = none) (state : σ)
    (context : RequestContext) (result : MethodResult) :
    complete method state context result = result.finish context.rawContent := by
  rw [complete, h]

/-- The body of the answer to a result is that of the completion, or else the envelope of the error
that has taken its place. -/
theorem body_respond (c : HandlerClass σ) (method : Method σ) (result : MethodResult)
    (s : Scene σ) :
    ((respond c method result).run s).1.body = (completion method result s).2.body ∨
    ∃ e : ServiceError, ((respond c method result).run s).1.body =
      (e.envelope (some s.context.requestId)).renderBytes := by
  rw [respond_run]
  rcases completion method result s with ⟨error | structured, w⟩
  · rw [conclude, salvage]
    by_cases hfinished : w.finished = true
    · rw [if_pos hfinished]
      exact .inl rfl
    · rw [if_neg hfinished]
      exact .inr ⟨completionFailure error, rfl⟩
  · exact .inl rfl

/-- A result is handed to a finisher without diagnostic members.  Whatever operations complete the
response, and under any codec, its body is put together from the payloads that stand in it: bytes
and texts as they are, structured values as the codec writes them once they are stripped.  A value
that the default rules send is stripped too, also when it is sent raw.  And if the completion gives
way to an error, its envelope has no diagnostic members either. -/
theorem structured_values_are_sent_stripped (c : HandlerClass σ) (method : Method σ)
    (result : MethodResult) (s : Scene σ) (hresult : result.Scripted)
    (hfinisher : ∀ finisher, method.finisher = some finisher →
      Scripted (finisher s.setting.instanceState s.context result.strip)) :
    result.strip.Clean ∧
    (∀ finisher, method.finisher = some finisher →
      complete method s.setting.instanceState s.context result =
        (do finisher s.setting.instanceState s.context result.strip; return none)) ∧
    (∃ script : Script (Option Json),
      script.Describes (complete method s.setting.instanceState s.context result)) ∧
    (∀ (codec : Codec) (script : Script (Option Json)),
      script.Describes (complete method s.setting.instanceState s.context result) →
      Assembled codec (Operation.standingAfter (script.trace (.new codec)) (.new codec) [])
        ((Writer.new codec).edit
          (complete method s.setting.instanceState s.context result)).2.body) ∧
    (∀ (codec : Codec) (value : Json), method.finisher = none → result = .value value →
      ValueBody codec s.context.rawContent value
        ((Writer.new codec).edit
          (complete method s.setting.instanceState s.context result)).2.body) ∧
    (((respond c method result).run s).1.body =
        ((Writer.new .json).edit
          (complete method s.setting.instanceState s.context result)).2.body ∨
      ∃ e : ServiceError, (e.envelope (some s.context.requestId)).hasDiagnostics = false ∧
        ((respond c method result).run s).1.body =
          (e.envelope (some s.context.requestId)).renderBytes) := by
  refine ⟨result.clean_strip, ?_, ?_, ?_, ?_, ?_⟩
  · intro finisher hmethod
    exact complete_of_finisher hmethod _ _ _
  · exact scripted_complete hresult hfinisher
  · intro codec script hscript
    exact Script.assembled hscript codec
  · rintro codec value hmethod rfl
    rw [complete_of_no_finisher hmethod]
    exact valueBody_finish codec s.context.rawContent value
  · rcases body_respond c method result s with hbody | ⟨e, hbody⟩
    · exact .inl hbody
    · exact .inr ⟨e, e.hasDiagnostics_envelope _, hbody⟩

def tracedFailure : Json := Returns.errorWithStack "no such file" ["frame 1"]

/-- A result that writes the failure, once by a recorded closure and once at the end. -/
def tracedResult : MethodResult :=
  .deferred {
    payload := some (.structured tracedFailure)
    actions := [.custom (Edit.write (.structured tracedFailure))] }

theorem tracedResult_is_sent_stripped :
    tracedFailure.hasDiagnostics = true ∧ tracedResult.strip.Clean ∧
    ∃ script : Script (Option Json),
      script.Describes (complete ⟨"read", Work.done tracedResult, none, none⟩ ()
        { path := "/files" } tracedResult) ∧
      Assembled .json (Operation.standingAfter (script.trace (.new .json)) (.new .json) [])
        ((Writer.new .json).edit (complete ⟨"read", Work.done tracedResult, none, none⟩ ()
          { path := "/files" } tracedResult)).2.body := by
  let c : HandlerClass Unit := { system := "Files", handler := "Reader", methods := [] }
  let s : Scene Unit := ⟨⟨{}, (), .fixed .allowAll, []⟩, { path := "/files" }, []⟩
  have hscripted : tracedResult.Scripted := by
    intro script hmem
    obtain rfl : script = Edit.write (.structured tracedFailure) := by simpa using hmem
    exact .operation (.write (.structured tracedFailure))
  have hfinisher : ∀ finisher, (none : Option (Component.Finisher Unit)) = some finisher →
      Scripted (finisher s.setting.instanceState s.context tracedResult.strip) := by
    intro finisher h
    cases h
  obtain ⟨hclean, -, ⟨script, hscript⟩, hassembled, -, -⟩ :=
    structured_values_are_sent_stripped c ⟨"read", Work.done tracedResult, none, none⟩
      tracedResult s hscripted hfinisher
  exact ⟨by decide, hclean, script, hscript, hassembled .json script hscript⟩

end Gatehouse.Service
