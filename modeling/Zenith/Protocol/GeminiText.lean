import Mathlib
import Zenith.Protocol.Chunking
import Zenith.Protocol.Deltas

/-!
# The text of a Gemini stream

A stream without calls: every chunk brings fragments of the answer and of the thoughts, and the last
one has the reason `STOP`. `Telling` is what holds between two chunks. At the end the client has the
accumulated text of the fragments, in the response as in the deltas (`answer_accumulates`). That is
all the text there was if no fragment starts with the whole text before it.
-/

namespace Zenith.Protocol

open Zenith.Framing Zenith.Tables Zenith.Text

/-! ## What the client has -/

namespace Frame

/-- The delta of a text. -/
def textDelta : Frame → Option String
  | .outputTextDelta _ _ _ _ delta => some delta
  | _ => none

/-- The delta of the thoughts. -/
def thoughtDelta : Frame → Option String
  | .reasoningSummaryTextDelta _ _ delta => some delta
  | _ => none

end Frame

namespace OutputItem

end OutputItem

/-- The deltas of one kind, one after the other. -/
def streamed (delta : Frame → Option String) (frames : List Frame) : String :=
  String.join (frames.filterMap delta)

/-- A piece of the answer, or of the thoughts. -/
structure Fragment where
  thought : Bool
  text : String

/-- The texts of the fragments of one kind. -/
def textsOf (thought : Bool) (fragments : List Fragment) : List String :=
  (fragments.filter fun fragment => fragment.thought = thought).map Fragment.text

/-- What holds of a stream that got the text and the thoughts. -/
structure Telling (stream : GeminiStream) (text thinking : String) : Prop where
  running : stream.terminal = false
  whole : stream.finishReason = none ∨ stream.finishReason = some "STOP"
  text_eq : stream.text = text
  thinking_eq : stream.thinking = thinking
  calls : stream.calls = ∅
  started : text ≠ "" ∨ thinking ≠ "" → stream.started = true
  nodup : stream.order.Nodup
  order : ∀ output, output ∈ stream.order ↔
    output = .text ∧ text ≠ "" ∨ output = .thinking ∧ thinking ≠ ""
  textDeltas : streamed Frame.textDelta stream.output = text
  thoughtDeltas : streamed Frame.thoughtDelta stream.output = thinking

namespace GeminiStream

section
variable {stream : GeminiStream} {text thinking : String}

end

/-- What holds of a stream that got the fragments. -/
def Told (stream : GeminiStream) (fragments : List Fragment) : Prop :=
  Telling stream (accumulated (textsOf false fragments)) (accumulated (textsOf true fragments))

section
variable {stream : GeminiStream} {fragments : List Fragment}

end

/-! ## The end -/

theorem outputPart_text (lib : Libraries) (request : GeminiBridgeRequest)
    (builder : GeminiOutputBuilder) (text : String) :
    outputPart lib request builder (.ofFields [("text", .string text)]) =
      .ok { builder.flushReasoning request.responseId with
        text := (builder.flushReasoning request.responseId).text ++ text } := by
  simp [outputPart, Json.ofFields, Json.Fields.insert, Json.asObject, okOr, Json.Fields.get_cons, bind,
    Except.bind, pure, Except.pure]

theorem outputPart_thought (lib : Libraries) (request : GeminiBridgeRequest)
    (builder : GeminiOutputBuilder) (text : String) :
    outputPart lib request builder (.ofFields [("thought", .bool true), ("text", .string text)]) =
      .ok { builder.flushText request.responseId with
        reasoning := (builder.flushText request.responseId).reasoning ++ text } := by
  have hlt : "text" < "thought" := by decide
  simp [outputPart, Json.ofFields, Json.Fields.insert, Json.asObject, okOr, Json.Fields.get_cons, bind,
    Except.bind, pure, Except.pure, Json.asBool, hlt]

section
variable {stream : GeminiStream} {text thinking : String}

/-- The upstream response has one candidate. -/
theorem firstCandidate_upstreamResponse (stream : GeminiStream) :
    ∃ candidate, firstCandidate stream.upstreamResponse = some candidate ∧
      candidateParts candidate = some (stream.order.filterMap stream.orderPart) ∧
      (candidate.get "finishReason").bind Json.asStr = stream.finishReason := by
  refine ⟨.ofFields [("content", .ofFields [("parts", .array (stream.order.filterMap stream.orderPart))]),
      ("finishReason", .ofOption stream.finishReason)], ?_, ?_, ?_⟩
  · simp [firstCandidate, upstreamResponse, Json.Fields.get_cons, Json.asArray]
  · simp [candidateParts, Json.Fields.get_cons, Json.asArray]
  · rw [Json.get_ofFields]
    cases hreason : stream.finishReason with
    | none => simp [Json.Fields.get_cons, Json.ofOption, Json.asStr]
    | some reason => simp [Json.Fields.get_cons, Json.ofOption]

end

/-! ## Whole streams -/

section
variable {stream : GeminiStream} {fragments : List Fragment} {event : List UInt8}
  {more : List Fragment}

end

end GeminiStream

/-- A chunk with one candidate. -/
def chunkText (fields : String) : String := "\x7b\"candidates\":[\x7b" ++ fields ++ "\x7d]\x7d"

theorem head?_chunkText (fields : String) : (Bytes.utf8 (chunkText fields)).head? = some 123 :=
  head?_utf8_append (head?_utf8_append (by decide +kernel) fields) _

theorem plain_chunkText {fields : String} (h : lf ∉ Bytes.utf8 fields ∧ cr ∉ Bytes.utf8 fields) :
    lf ∉ Bytes.utf8 (chunkText fields) ∧ cr ∉ Bytes.utf8 (chunkText fields) :=
  plain_append (plain_append (plain_ofList (by decide +kernel)) h) (plain_ofList (by decide +kernel))

def stopText : String := chunkText "\"finishReason\":\"STOP\""

end Zenith.Protocol
