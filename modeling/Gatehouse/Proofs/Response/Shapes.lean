import Gatehouse.Proofs.Http.Header
import Gatehouse.Proofs.Response.Codec
import Gatehouse.Proofs.Response.Completion

/-!
# What becomes of a result

The rules for results as a table: for each shape, with and without a call for raw content, the
content type that is announced, the bytes that are sent and the value that is reported as sent.  An
open response is completed by the table, or stays as it was where the codec refuses the value.
-/

namespace Gatehouse.Response

open Effect
open Json (maxDepth)

/-- What the rules for results add to a response. -/
structure Sending where
  /-- The content type that is announced, if one is. -/
  contentType : Option String
  bytes : List UInt8
  /-- The structured value that is reported as sent, if one is. -/
  sent : Option Json

def Sending.complete (sending : Sending) (w : Writer) : Writer :=
  { w with
    headers := match sending.contentType with
      | some contentType => w.headers.insert "content-type" (Text.Utf8.encode contentType)
      | none => w.headers
    body := w.body ++ sending.bytes
    finished := true }

/-- What is to be sent of a result, with or without a call for raw content. -/
inductive Declared (codec : Codec) : MethodResult → Bool → Sending → Prop where
  | bytes {bytes : List UInt8} {raw : Bool} :
      Declared codec (.raw bytes) raw ⟨some octetStream, bytes, none⟩
  | rawText {text : String} :
      Declared codec (.text text) true ⟨some octetStream, Text.Utf8.encode text, none⟩
  | text {text : String} : Declared codec (.text text) false ⟨none, Text.Utf8.encode text, none⟩
  | empty {raw : Bool} : Declared codec .empty raw ⟨none, [], none⟩
  | rawString {text : String} :
      Declared codec (.value (.str text)) true ⟨some octetStream, Text.Utf8.encode text, none⟩
  | rawValue {value : Json} {bytes : List UInt8} (hvalue : ∀ text, value ≠ .str text)
      (encoded : codec.encode value.strip = .ok bytes) :
      Declared codec (.value value) true ⟨some octetStream, bytes, none⟩
  | value {value : Json} {bytes : List UInt8} (encoded : codec.encode value.strip = .ok bytes) :
      Declared codec (.value value) false ⟨some codec.contentType, bytes, some value.strip⟩

/-- The codec refuses the value that is to be sent. -/
inductive Unsendable (codec : Codec) : MethodResult → Bool → CodecError → Prop where
  | rawValue {value : Json} {error : CodecError} (hvalue : ∀ text, value ≠ .str text)
      (refused : codec.encode value.strip = .error error) :
      Unsendable codec (.value value) true error
  | value {value : Json} {error : CodecError} (refused : codec.encode value.strip = .error error) :
      Unsendable codec (.value value) false error

/-- A result that is not deferred stands in the table, unless the codec refuses it. -/
theorem declared_or_unsendable (codec : Codec) (result : MethodResult) (raw : Bool) :
    (∃ sending, Declared codec result raw sending) ∨
    (∃ error, Unsendable codec result raw error) ∨ ∃ log, result = .deferred log := by
  cases result with
  | deferred log => exact .inr (.inr ⟨log, rfl⟩)
  | empty => exact .inl ⟨_, .empty⟩
  | raw bytes => exact .inl ⟨_, .bytes⟩
  | text text =>
      cases raw with
      | true => exact .inl ⟨_, .rawText⟩
      | false => exact .inl ⟨_, .text⟩
  | value value =>
      by_cases hstring : raw = true ∧ ∃ text, value = .str text
      · obtain ⟨rfl, text, rfl⟩ := hstring
        exact .inl ⟨_, .rawString⟩
      · cases hencode : codec.encode value.strip with
        | error error =>
            cases raw with
            | false => exact .inr (.inl ⟨error, .value hencode⟩)
            | true =>
                have hvalue : ∀ text, value ≠ .str text := by simpa using hstring
                exact .inr (.inl ⟨error, .rawValue hvalue hencode⟩)
        | ok bytes =>
            cases raw with
            | false => exact .inl ⟨_, .value hencode⟩
            | true =>
                have hvalue : ∀ text, value ≠ .str text := by simpa using hstring
                exact .inl ⟨_, .rawValue hvalue hencode⟩

/-- Whatever content type is announced, it can be read in the header as it stands. -/
theorem Declared.text?_contentType {w : Writer} {result : MethodResult} {raw : Bool}
    {sending : Sending} {type : String} (h : Declared w.codec result raw sending)
    (htype : sending.contentType = some type) :
    (sending.complete w).headers.text? "content-type" = some type := by
  have hvisible : ∀ b ∈ Text.Utf8.encode type, Http.isVisibleByte b = true := by
    have hoctets : ∀ b ∈ Text.Utf8.encode octetStream, Http.isVisibleByte b = true := by
      decide +kernel
    cases h with
    | bytes | rawText | rawString | rawValue _ _ =>
        cases htype
        exact hoctets
    | text | empty => cases htype
    | value _ =>
        cases htype
        exact w.codec.visible
  rw [Sending.complete, htype]
  exact Http.Headers.text?_insert_self _ _ hvisible

/-- A value that is no text is encoded even where raw content is called for. -/
theorem finish_rawValue {value : Json} (h : ∀ text, value ≠ .str text) :
    (MethodResult.value value).finish true = (do
      match (← get).codec.encode value.strip with
      | .error error => throw (.codec error)
      | .ok bytes => finishRaw bytes
      return none) := by
  cases value with
  | str text => exact absurd rfl (h text)
  | _ => rfl

section

variable {w : Writer} (hopen : w.finished = false)

include hopen

/-- A stripped value is encoded as it is. -/
theorem run_finish_stripped (value : Json) :
    (Edit.finish (some (.structured value.strip))).run w =
      match w.codec.encode value.strip with
      | .error error => (.error (.codec error), w)
      | .ok bytes => (.ok (), { w.withEncoded bytes with finished := true }) := by
  have hrun := run_finish_structured hopen value.strip
  rwa [Json.strip_strip] at hrun

/-- What the table declares completes an open response. -/
theorem Declared.edit_finish {result : MethodResult} {raw : Bool} {sending : Sending}
    (h : Declared w.codec result raw sending) :
    w.edit (result.finish raw) = (.ok sending.sent, sending.complete w) := by
  have answered {e : Edit Unit} {left : Writer} (answer : Option Json)
      (he : e.run w = (.ok (), left)) :
      (do e; return answer : Edit (Option Json)).run w = (.ok answer, left) := run_bind_ok he
  cases h with
  | bytes => exact answered none (run_finishRaw hopen _)
  | rawText => exact answered none (run_finishRaw hopen _)
  | rawString => exact answered none (run_finishRaw hopen _)
  | @text text =>
      have happend : (Edit.append (.text text)).run w =
          (.ok (), { w with body := w.body ++ Text.Utf8.encode text }) := rfl
      exact answered none (run_finish_of_ok hopen happend)
  | empty =>
      have hcomplete : (Sending.mk none [] none).complete w = { w with finished := true } := by
        rw [Sending.complete, List.append_nil]
      rw [hcomplete]
      exact answered none (run_finish_none hopen)
  | rawValue hvalue encoded =>
      rw [finish_rawValue hvalue, Writer.edit, run_bind_ok (run_get w), encoded]
      exact answered none (run_finishRaw hopen _)
  | @value value bytes encoded =>
      have hrun := run_finish_stripped hopen value
      rw [encoded] at hrun
      rw [finish_value]
      exact answered (some value.strip) hrun

/-- What the codec refuses leaves an open response as it was. -/
theorem Unsendable.edit_finish {result : MethodResult} {raw : Bool} {error : CodecError}
    (h : Unsendable w.codec result raw error) :
    w.edit (result.finish raw) = (.error (.codec error), w) := by
  cases h with
  | rawValue hvalue refused =>
      rw [finish_rawValue hvalue, Writer.edit, run_bind_ok (run_get w), refused]
      rfl
  | @value value _ refused =>
      have hrun := run_finish_stripped hopen value
      rw [refused] at hrun
      rw [finish_value]
      exact run_bind_error hrun

end

/-- Every result that is not deferred completes an open response as the table declares, its status
and everything that the table does not name left as they were, and a content type that is declared
can be read in the header; where the codec refuses the value, the response stays open and as it was.
For a deferred result it makes no difference whether raw content is called for.  An exact value that
is sent as structured text is read back from the body as the stripped value. -/
theorem results_are_sent_as_declared (w : Writer) (hopen : w.finished = false) :
    (∀ result raw, (∃ sending, Declared w.codec result raw sending) ∨
      (∃ error, Unsendable w.codec result raw error) ∨ ∃ log, result = .deferred log) ∧
    (∀ result raw sending, Declared w.codec result raw sending →
      w.edit (result.finish raw) = (.ok sending.sent, sending.complete w) ∧
      ∀ type, sending.contentType = some type →
        (sending.complete w).headers.text? "content-type" = some type) ∧
    (∀ result raw error, Unsendable w.codec result raw error →
      w.edit (result.finish raw) = (.error (.codec error), w)) ∧
    (∀ log, (MethodResult.deferred log).finish true = (MethodResult.deferred log).finish false) ∧
    ∀ value : Json, value.isExact = true → value.nesting ≤ maxDepth →
      ∃ left, (Writer.new).edit ((MethodResult.value value).finish false) =
        (.ok (some value.strip), left) ∧ Codec.json.decode left.body = .ok value.strip := by
  refine ⟨declared_or_unsendable w.codec,
    fun _ _ _ h => ⟨h.edit_finish hopen, fun _ htype => h.text?_contentType htype⟩,
    fun _ _ _ h => h.edit_finish hopen, fun log => rfl, fun value hexact hnesting => ?_⟩
  have hdeclared : Declared Codec.json (.value value) false
      ⟨some structuredType, value.strip.renderBytes, some value.strip⟩ := .value rfl
  refine ⟨_, hdeclared.edit_finish (w := .new) rfl, ?_⟩
  exact Codec.decode_renderBytes (Json.isExact_strip value hexact)
    ((Json.nesting_strip_le value).trans hnesting)

def begunResponse : Writer where
  codec := .json
  status := .notFound
  headers := Http.Headers.empty.insert "content-type" (Text.Utf8.encode "text/plain")
  body := [32]

def tracedValue : Json := .obj [("a", .arr [.obj [("CallStack", .str "main"), ("b", .int 1)]])]

theorem tracedValue_is_sent_as_declared :
    begunResponse.finished = false ∧
    begunResponse.edit ((MethodResult.value tracedValue).finish true) = (.ok none,
      (Sending.mk (some octetStream) tracedValue.strip.renderBytes none).complete begunResponse) ∧
    ((Sending.mk (some octetStream) tracedValue.strip.renderBytes none).complete
      begunResponse).headers.text? "content-type" = some octetStream ∧
    tracedValue.isExact = true ∧ tracedValue.nesting ≤ maxDepth ∧
    ∃ left, (Writer.new).edit ((MethodResult.value tracedValue).finish false) =
      (.ok (some tracedValue.strip), left) ∧
      Codec.json.decode left.body = .ok tracedValue.strip := by
  have hopen : begunResponse.finished = false := rfl
  have hexact : tracedValue.isExact = true := rfl
  have hnesting : tracedValue.nesting ≤ maxDepth := by decide
  obtain ⟨-, hsent, -, -, hread⟩ := results_are_sent_as_declared begunResponse hopen
  have hdeclared : Declared begunResponse.codec (.value tracedValue) true
      ⟨some octetStream, tracedValue.strip.renderBytes, none⟩ := .rawValue nofun rfl
  obtain ⟨hcomplete, hannounced⟩ := hsent _ _ _ hdeclared
  exact ⟨hopen, hcomplete, hannounced _ rfl, hexact, hnesting, hread tracedValue hexact hnesting⟩

end Gatehouse.Response
