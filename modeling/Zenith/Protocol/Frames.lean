import Mathlib
import Zenith.Protocol.Contracts

/-!
# Frames of a Responses stream

The events that the bridges of `protocol/adapter/stream.rs` send to the client, one constructor for
each of them. `event` is the name of the event, `payload` its JSON and `bytes` the frame that the
client gets. Payloads can always be printed.
-/

namespace Zenith.Protocol

open Zenith.Bytes

inductive Frame
  | created (responseId model : String)
  | outputItemAdded (outputIndex : Nat) (item : OutputItem)
  /-- `annotated` says whether the empty part has a list of annotations. -/
  | contentPartAdded (itemId : String) (outputIndex contentIndex : Nat) (annotated : Bool)
  | outputTextDelta (responseId itemId : String) (outputIndex contentIndex : Nat) (delta : String)
  | reasoningSummaryTextDelta (responseId : String) (outputIndex : Option Nat) (delta : String)
  | functionCallArgumentsDelta (responseId : Option String) (itemId : String) (outputIndex : Nat)
      (delta : String)
  | outputTextDone (responseId : Option String) (itemId : String) (outputIndex contentIndex : Nat)
      (text : String)
  | contentPartDone (responseId : Option String) (itemId : String) (outputIndex contentIndex : Nat)
  | functionCallArgumentsDone (responseId : Option String) (itemId callId name : String)
      (nameSpace : Option String) (outputIndex : Nat) (arguments : String)
  | customToolCallInputDone (responseId : Option String) (itemId : String) (outputIndex : Nat)
      (input : String)
  | outputItemDone (responseId : Option String) (outputIndex : Nat) (item : OutputItem)
  | completed (response : ResponseBody)
  | failed (responseId model : String) (error : AdapterError)

namespace Frame

def event : Frame → String
  | .created _ _ => "response.created"
  | .outputItemAdded _ _ => "response.output_item.added"
  | .contentPartAdded _ _ _ _ => "response.content_part.added"
  | .outputTextDelta _ _ _ _ _ => "response.output_text.delta"
  | .reasoningSummaryTextDelta _ _ _ => "response.reasoning_summary_text.delta"
  | .functionCallArgumentsDelta _ _ _ _ => "response.function_call_arguments.delta"
  | .outputTextDone _ _ _ _ _ => "response.output_text.done"
  | .contentPartDone _ _ _ _ => "response.content_part.done"
  | .functionCallArgumentsDone _ _ _ _ _ _ _ => "response.function_call_arguments.done"
  | .customToolCallInputDone _ _ _ _ => "response.custom_tool_call_input.done"
  | .outputItemDone _ _ _ => "response.output_item.done"
  | .completed _ => "response.completed"
  | .failed _ _ _ => "response.failed"

/-- The fields of the payload besides its `type`. -/
def fields : Frame → Json.Fields
  | .created responseId model => [("response", .ofFields [("id", .string responseId),
      ("object", .string "response"), ("status", .string "in_progress"), ("model", .string model),
      ("output", .array [])])]
  | .outputItemAdded outputIndex item =>
    [("output_index", .ofNat outputIndex), ("item", item.json)]
  | .contentPartAdded itemId outputIndex contentIndex annotated =>
    [("item_id", .string itemId), ("output_index", .ofNat outputIndex),
      ("content_index", .ofNat contentIndex),
      ("part", .ofFields <| [("type", .string "output_text"), ("text", .string "")] ++
        if annotated then [("annotations", .array [])] else [])]
  | .outputTextDelta responseId itemId outputIndex contentIndex delta =>
    [("response_id", .string responseId), ("item_id", .string itemId),
      ("output_index", .ofNat outputIndex), ("content_index", .ofNat contentIndex),
      ("delta", .string delta)]
  | .reasoningSummaryTextDelta responseId outputIndex delta =>
    [("response_id", .string responseId), ("output_index", outputIndex.elim .null .ofNat),
      ("delta", .string delta)]
  | .functionCallArgumentsDelta responseId itemId outputIndex delta =>
    [("response_id", .ofOption responseId), ("item_id", .string itemId),
      ("output_index", .ofNat outputIndex), ("delta", .string delta)]
  | .outputTextDone responseId itemId outputIndex contentIndex text =>
    [("response_id", .ofOption responseId), ("item_id", .string itemId),
      ("output_index", .ofNat outputIndex), ("content_index", .ofNat contentIndex),
      ("text", .string text)]
  | .contentPartDone responseId itemId outputIndex contentIndex =>
    [("response_id", .ofOption responseId), ("item_id", .string itemId),
      ("output_index", .ofNat outputIndex), ("content_index", .ofNat contentIndex)]
  | .functionCallArgumentsDone responseId itemId callId name nameSpace outputIndex arguments =>
    [("response_id", .ofOption responseId), ("item_id", .string itemId),
      ("call_id", .string callId), ("name", .string name), ("output_index", .ofNat outputIndex),
      ("arguments", .string arguments)] ++
      nameSpace.toList.map fun nameSpace => ("namespace", .string nameSpace)
  | .customToolCallInputDone responseId itemId outputIndex input =>
    [("response_id", .ofOption responseId), ("item_id", .string itemId),
      ("output_index", .ofNat outputIndex), ("input", .string input)]
  | .outputItemDone responseId outputIndex item =>
    [("response_id", .ofOption responseId), ("output_index", .ofNat outputIndex),
      ("item", item.json)]
  | .completed response => [("response", response.json)]
  | .failed responseId model error => [("response", .ofFields [("id", .string responseId),
      ("object", .string "response"), ("status", .string "failed"), ("model", .string model),
      ("output", .array []),
      ("error", .ofFields [("type", .string "invalid_request_error"), ("code", .string error.code),
        ("message", .string error.message)])])]

def payload (frame : Frame) : Json := .ofFields (("type", .string frame.event) :: frame.fields)

/-- What `pop_output` gives. -/
def bytes (serde : Json.Serde) (frame : Frame) : List UInt8 :=
  utf8 ("event: " ++ frame.event ++ "\ndata: " ++ serde.toString frame.payload ++ "\n\n")

end Frame

end Zenith.Protocol
