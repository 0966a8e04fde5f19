import Gatehouse.Proofs.Service.Diagnostics
import Gatehouse.Proofs.Service.Record

/-!
# One response and one record

Every request ends in one finished response, one line about its outcome and one count, and the three
agree.  No stage before the response writes such a line or counts anything, so it is enough to look
at the end of handling.
-/

namespace Gatehouse.Response

open Effect

/-- A return structure that is a failure says so in one member. -/
theorem Returns.outcome_eq_error (value : Json) :
    (∃ message, outcome value = some (.error message)) ↔
      value.field? "OK" = some (.bool false) := by
  rw [outcome]
  constructor
  · rintro ⟨message, h⟩
    split at h
    · cases h
    · assumption
    · cases h
  · intro h
    exact ⟨_, by rw [h]⟩

/-- The text of an outcome begins like an error exactly if the outcome is one. -/
theorem classify_startsWith (status : Http.Status) (structured : Option Json) :
    (classify status structured).startsWith "ERROR" = true ↔
      400 ≤ status.code ∨ ∃ message, structured.bind Returns.outcome = some (.error message) := by
  rw [classify, String.startsWith_string_iff]
  by_cases hstatus : status.code ≥ 400
  · rw [if_pos hstatus]
    refine ⟨fun _ => .inl hstatus, fun _ => ?_⟩
    simp only [String.toList_append, List.append_assoc]
    exact ⟨_, rfl⟩
  · rw [if_neg hstatus]
    rcases structured.bind Returns.outcome with _ | message | ⟨⟨⟩⟩
    · refine ⟨?_, fun h => by simp [hstatus] at h⟩
      rintro ⟨rest, hrest⟩
      simp only [String.toList_append] at hrest
      cases hrest
    · refine ⟨fun _ => .inr ⟨message, rfl⟩, fun _ => ?_⟩
      simp only [String.toList_append]
      exact ⟨_, rfl⟩
    · refine ⟨?_, fun h => by simp [hstatus] at h⟩
      rintro ⟨rest, hrest⟩
      simp only at hrest
      cases hrest

/-- The answer is no structured value other than the stripped result, and none at all where raw
content is asked for. -/
def MethodResult.AnswersWith (result : MethodResult) (raw : Bool) (structured : Option Json) :
    Prop :=
  ∀ sent, structured = some sent →
    raw = false ∧ ∃ value, result = .value value ∧ sent = value.strip

/-- Only the rule for values answers with a structured value. -/
theorem returns_finish (result : MethodResult) (raw : Bool) :
    ReturnsOnly (result.AnswersWith raw) (result.finish raw) := by
  have silent (e : Edit Unit) :
      ReturnsOnly (result.AnswersWith raw) (do e; return none : Edit (Option Json)) :=
    .bind fun _ => .pure fun _ h => by cases h
  cases result with
  | deferred log => exact silent log.strip.replay
  | empty => exact silent (Edit.finish none)
  | raw bytes => exact silent (finishRaw bytes)
  | text text =>
      cases raw with
      | true => exact silent (finishRaw (Text.Utf8.encode text))
      | false => exact silent (Edit.finish (some (.text text)))
  | value value =>
      cases raw with
      | false =>
          rw [finish_value]
          refine .bind fun _ => .pure fun sent h => ?_
          exact ⟨rfl, value, rfl, (Option.some.inj h).symm⟩
      | true =>
          unfold MethodResult.finish
          rw [MethodResult.strip]
          cases value.strip with
          | str text => exact silent (finishRaw (Text.Utf8.encode text))
          | _ =>
              refine .bind fun w => ?_
              cases w.codec.encode _ with
              | error error => exact silent (throw (.codec error))
              | ok bytes => exact silent (finishRaw bytes)

end Gatehouse.Response

namespace Gatehouse.Service

open Component (HandlerClass Method Services)
open Effect
open Response

variable {σ : Type}

/-! ## Labels -/

theorem outcomeLabel_eq (w : Writer) (structured : Option Json) :
    outcomeLabel w structured = "ok" ∨ outcomeLabel w structured = "error" := by
  rw [outcomeLabel]
  split
  · exact .inr rfl
  · exact .inl rfl

theorem outcomeLabel_eq_error (w : Writer) (structured : Option Json) :
    outcomeLabel w structured = "error" ↔
      400 ≤ w.status.code ∨ ∃ message, structured.bind Returns.outcome = some (.error message) := by
  have hclassify := classify_startsWith w.status structured
  rw [outcomeLabel]
  constructor
  · intro h
    by_contra hneither
    rw [not_or] at hneither
    have hlabel : (classify w.status structured).startsWith "ERROR" = false := by
      rw [← Bool.not_eq_true, hclassify, not_or]
      exact hneither
    rw [if_neg (by simp [hlabel]; omega)] at h
    exact absurd h (by decide)
  · intro h
    rw [if_pos]
    rw [hclassify.mpr h, Bool.or_true]

/-- The default rules have sent a value which is, once stripped, a return structure that tells of a
failure. -/
def SentFailure (method : Method σ) (result : MethodResult) (context : RequestContext) : Prop :=
  method.finisher = none ∧ context.rawContent = false ∧
    ∃ value, result = .value value ∧ value.strip.field? "OK" = some (.bool false)

/-- A value that the default rules send is always sent. -/
theorem completion_value {method : Method σ} {s : Scene σ} (hmethod : method.finisher = none)
    (hraw : s.context.rawContent = false) (value : Json) :
    ∃ w, completion method (.value value) s = (.ok (some value.strip), w) := by
  let sent : Writer := (Writer.new .json).withEncoded value.strip.strip.renderBytes
  have hopen : (Writer.new .json).finished = false := rfl
  have hfinish : (Edit.finish (some (.structured value.strip))).run (Writer.new .json) =
      (.ok (), { sent with finished := true }) := run_finish_structured hopen value.strip
  refine ⟨{ sent with finished := true }, ?_⟩
  rw [completion, complete_of_no_finisher hmethod, hraw, finish_value]
  exact run_bind_ok hfinish

/-- A completion tells of a failure exactly if it has sent one. -/
theorem completion_outcome {method : Method σ} {result : MethodResult} {s : Scene σ}
    {structured : Option Json} {w : Writer}
    (h : completion method result s = (.ok structured, w)) :
    (∃ message, structured.bind Returns.outcome = some (.error message)) ↔
      SentFailure method result s.context := by
  constructor
  · rintro ⟨message, hmessage⟩
    obtain ⟨sent, rfl, houtcome⟩ := Option.bind_eq_some_iff.mp hmessage
    have hfailed := (Returns.outcome_eq_error sent).mp ⟨message, houtcome⟩
    have hanswer := congrArg Prod.fst h
    rw [completion] at hanswer
    cases hmethod : method.finisher with
    | some finisher =>
        have silent : ReturnsOnly (fun structured => structured = none)
            (complete method s.setting.instanceState s.context result) := by
          rw [complete_of_finisher hmethod]
          exact .bind fun _ => .pure rfl
        exact absurd (silent _ _ hanswer) (by simp)
    | none =>
        rw [complete_of_no_finisher hmethod] at hanswer
        obtain ⟨hraw, value, rfl, rfl⟩ := returns_finish result _ _ _ hanswer sent rfl
        exact ⟨hmethod, hraw, value, rfl, hfailed⟩
  · rintro ⟨hmethod, hraw, value, rfl, hfailed⟩
    obtain ⟨w', hcompletion⟩ := completion_value hmethod hraw value
    obtain rfl : some value.strip = structured := by
      rw [hcompletion] at h
      cases h
      rfl
    exact (Returns.outcome_eq_error value.strip).mpr hfailed

/-! ## The end of a request -/

/-- Between two scenes exactly one request has ended, with a finished response, one line about its
outcome and one count.  The line and the count name the same component and method, the line has the
status of the response, and the label is that of an error for an error status and for the given kind
of failure. -/
structure EndsOnce (s s' : Scene σ) (w : Writer) (failed : Prop) : Prop where
  finished : w.finished = true
  record : ∃ (lines : Log) (line : LogLine) (count : RequestCount),
    s'.setting.log = s.setting.log ++ lines ++ [line] ∧
    (∀ other ∈ lines, other.timed = false) ∧ line.timed = true ∧
    s'.counts = s.counts ++ [count] ∧
    line.fields = [("component", count.component), ("method", count.method),
      ("status", toString w.status.code)] ∧
    (count.outcome = "ok" ∨ count.outcome = "error") ∧
    (count.outcome = "error" ↔ 400 ≤ w.status.code ∨ failed)

/-- Recording a response after the stages ends the request once. -/
theorem StageStep.endsOnce {s between : Scene σ} (h : StageStep s between) (c : HandlerClass σ)
    {w : Writer} (hfinished : w.finished = true) {structured : Option Json} {failed : Prop}
    (hfailed : (∃ message, structured.bind Returns.outcome = some (.error message)) ↔ failed) :
    EndsOnce s (between.recorded c w structured) w failed where
  finished := hfinished
  record := by
    obtain ⟨lines, hlog, hlines⟩ := h.log
    refine ⟨lines, outcomeLine c between.context w structured,
      ⟨c.fullName, requestName between.context, outcomeLabel w structured⟩, ?_, hlines, rfl, ?_,
      rfl, outcomeLabel_eq w structured, ?_⟩
    · rw [← hlog]
      rfl
    · rw [← h.counts]
      rfl
    · rw [← hfailed]
      exact outcomeLabel_eq_error w structured

/-- A response without a structured value tells of no failure. -/
theorem no_outcome : ¬ ∃ message, (none : Option Json).bind Returns.outcome =
    some (.error message) := by
  rintro ⟨message, h⟩
  cases h

theorem salvage_finished (e : TransportError) (requestId : String) (w : Writer) :
    (salvage e requestId w).finished = true := by
  rw [salvage]
  by_cases h : w.finished = true
  · rwa [if_pos h]
  · rw [if_neg h]
    rfl

theorem conclude_endsOnce {s between : Scene σ} (h : StageStep s between) (c : HandlerClass σ)
    (method : Method σ) (result : MethodResult) :
    EndsOnce s (conclude c between (completion method result between)).2
      (conclude c between (completion method result between)).1
      (SentFailure method result between.context) := by
  rcases hcompletion : completion method result between with ⟨e | structured, w⟩
  · have hreport : StageStep between (between.reported (completionLine c between.context e)) :=
      ⟨.append_line rfl, rfl⟩
    have hfailed : ¬ SentFailure method result between.context := by
      rintro ⟨hmethod, hraw, value, rfl, -⟩
      obtain ⟨w', hsent⟩ := completion_value hmethod hraw value
      rw [hsent] at hcompletion
      cases hcompletion
    exact (trans_of StageStep h hreport).endsOnce c (salvage_finished e _ w)
      (iff_of_false no_outcome hfailed)
  · exact h.endsOnce c rfl (completion_outcome hcompletion)

/-- What is sent when a response can be neither completed nor kept: an internal failure that tells
nothing of it. -/
def brokenResponse (requestId : String) : Writer :=
  envelopeWriter (.internal "Failed to complete response" none) (some requestId)

theorem salvage_eq (e : TransportError) (requestId : String) {w : Writer}
    (h : w.finished = false) : salvage e requestId w = brokenResponse requestId := by
  rw [salvage, if_neg (by simp [h])]
  rfl

/-- A response that was finished before its completion failed is what the operation has left that
has finished it. -/
theorem finished_by_operation {method : Method σ} {result : MethodResult} {s : Scene σ}
    {answer : Except TransportError (Option Json)} {left : Writer}
    (h : completion method result s = (answer, left)) (hleft : left.finished = true)
    {script : Script (Option Json)}
    (hscript : script.Describes (complete method s.setting.instanceState s.context result)) :
    ∃ before operation rest, script.trace (.new .json) = before ++ operation :: rest ∧
      (Operation.after before (.new .json)).finished = false ∧
      left = ((Operation.after before (.new .json)).edit operation.edit).2 := by
  have hopen : (Writer.new .json).finished = false := rfl
  have hrun : left = Operation.after (script.trace (.new .json)) (.new .json) := by
    rw [← script.run_eq_after, ← hscript]
    exact (congrArg Prod.snd h).symm
  rw [hrun] at hleft ⊢
  exact Operation.after_eq_of_finished hopen hleft

/-- Every request ends in one finished response, one line about its outcome and one count, whatever
its work does and however its response is completed.  The label is that of an error for an error
status and for a failure that the default rules have sent.  If a completion fails, a response that
was finished before is sent as the operation left it that had finished it; and otherwise an internal
failure is sent in which nothing is left of the response. -/
theorem one_response_and_one_record (c : HandlerClass σ) (services : Services) (now : Nat)
    (request : Request) (s : Scene σ) :
    ∃ w s', (handle c services now request).run s = (w, s') ∧
      EndsOnce s s' w (∃ method result worked,
        (serve c services now request).run s = (.ok (method, result), worked) ∧
        SentFailure method result worked.context) ∧
      ∀ method result worked e left,
        (serve c services now request).run s = (.ok (method, result), worked) →
        completion method result worked = (.error e, left) →
        (left.finished = true ∧ w = left ∧
          ∀ script : Script (Option Json), script.Describes
            (complete method worked.setting.instanceState worked.context result) →
            ∃ before operation rest, script.trace (.new .json) = before ++ operation :: rest ∧
              (Operation.after before (.new .json)).finished = false ∧
              w = ((Operation.after before (.new .json)).edit operation.edit).2) ∨
        (left.finished = false ∧ w = brokenResponse worked.context.requestId) := by
  have hstep := leaves_serve c services now request s
  rw [handle_run]
  rcases hserve : (serve c services now request).run s with ⟨e | ⟨method, result⟩, worked⟩
  · rw [hserve] at hstep
    refine ⟨_, _, rfl, hstep.endsOnce c rfl (iff_of_false no_outcome ?_), ?_⟩
    · rintro ⟨_, _, _, h, -⟩
      cases h
    · intro _ _ _ _ _ h
      cases h
  · rw [hserve] at hstep
    have hends := conclude_endsOnce hstep c method result
    have hsame : SentFailure method result worked.context ↔ ∃ method' result' worked',
        ((.ok (method, result), worked) :
          Except ServiceError (Method σ × MethodResult) × Scene σ) =
            (.ok (method', result'), worked') ∧ SentFailure method' result' worked'.context := by
      constructor
      · intro hsent
        exact ⟨method, result, worked, rfl, hsent⟩
      · rintro ⟨_, _, _, h, hsent⟩
        cases h
        exact hsent
    rw [hsame] at hends
    refine ⟨(conclude c worked (completion method result worked)).1, _, rfl, hends, ?_⟩
    intro method' result' worked' e left h hcompletion
    cases h
    have hresponse : (conclude c worked (completion method result worked)).1 =
        salvage e worked.context.requestId left := by
      rw [hcompletion]
      rfl
    rw [hresponse]
    cases hleft : left.finished with
    | false => exact .inr ⟨rfl, salvage_eq e worked.context.requestId hleft⟩
    | true =>
        have hkept : salvage e worked.context.requestId left = left := if_pos hleft
        rw [hkept]
        exact .inl ⟨rfl, rfl, fun _ hscript => finished_by_operation hcompletion hleft hscript⟩

def brokenMethod : Method Unit where
  name := "report"
  call := Component.Work.done .empty
  finisher := some fun _ _ _ => do
    Edit.setStatus .notFound
    Edit.write (.text "half a repo")
    throw (.codec (.encode "out of paper"))

def brokenClass : HandlerClass Unit where
  system := "Accounts"
  handler := "Printer"
  grants := []
  methodName _ := .ok "report"
  methods := [("report", brokenMethod)]

/-- Nothing of the response that such a finisher has begun reaches the client. -/
theorem brokenMethod_response :
    ∃ s s' : Scene Unit, s.context.requestId = "r1" ∧
      (handle brokenClass {} 0 { path := "/report" }).run s = (brokenResponse "r1", s') ∧
      EndsOnce s s' (brokenResponse "r1") (∃ method result worked,
        (serve brokenClass {} 0 { path := "/report" }).run s = (.ok (method, result), worked) ∧
        SentFailure method result worked.context) := by
  let s : Scene Unit :=
    ⟨⟨{}, (), .fixed .allowAll, []⟩, { requestId := "r1", path := "/report" }, []⟩
  let worked := ((serve brokenClass {} 0 { path := "/report" }).run s).2
  let left := (completion brokenMethod .empty worked).2
  obtain ⟨w, s', hrun, hends, hfails⟩ :=
    one_response_and_one_record brokenClass {} 0 { path := "/report" } s
  have hleft : left.finished = false := rfl
  rcases hfails brokenMethod .empty worked (.codec (.encode "out of paper")) left rfl rfl with
    ⟨hfinished, -⟩ | ⟨-, rfl⟩
  · rw [hleft] at hfinished
    cases hfinished
  · exact ⟨s, s', rfl, hrun, hends⟩

end Gatehouse.Service
