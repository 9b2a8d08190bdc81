import Mathlib
import Zenith.Gateway.Usage
import Zenith.Protocol.Sse

/-!
# Events of an upstream stream

What the gateway reads off one server-sent event, from `gateway/streaming/events.rs`. The tables
that classify an upstream error are not looked at here: `Classifier` has them as functions of the
event, and every result holds whatever they say.
-/

namespace Zenith.Gateway

open Zenith.Bytes Zenith.Protocol Zenith.Text

/-- `upstream_event_failure_category` and `rate_limit_body_hint_value`. -/
structure Classifier where
  failureCategory : Option String → Json → Option String
  cooldownHint : Json → Json

inductive TerminalOutcome
  | success
  | incomplete
  | failure
deriving DecidableEq, Repr

structure TerminalEvent where
  hasData : Bool := false
  valid : Bool := false
  hasOutputDelta : Bool := false
  outcome : Option TerminalOutcome := none
  errorCategory : Option String := none
  cooldownHint : Json := .null
  usage : Option Json := none
  appliedServiceTier : Option String := none
  responseId : Option String := none
  response : Option Json := none
  outputItem : Option Json := none
  payload : Option Json := none

/-- One of the fields is a text that is not empty. -/
def hasText (value : Json) (keys : List String) : Bool :=
  keys.any fun key => ((value.get key).bind Json.asStr).any (· ≠ "")

def outputItemHasMeaningfulToolCall (item : Json) : Bool :=
  (match (item.get "type").bind Json.asStr with
    | some "function_call" => true
    | some "custom_tool_call" => true
    | some "mcp_call" => true
    | some "computer_call" => true
    | _ => false) && hasText item ["call_id", "id", "name"]

def functionDeltaHasOutput (function : Json) : Bool := hasText function ["name", "arguments"]

def chatChoiceHasOutputDelta (choice : Json) : Bool :=
  match choice.get "delta" with
  | none => false
  | some delta =>
    hasText delta ["content", "refusal"] ||
      (delta.get "function_call").any functionDeltaHasOutput ||
      ((delta.get "tool_calls").bind Json.asArray).any fun calls =>
        calls.any fun call =>
          hasText call ["id"] || (call.get "function").any functionDeltaHasOutput

/-- The events whose `delta` is a text of the output. -/
def isDeltaType : Option String → Bool
  | some "response.output_text.delta" => true
  | some "response.refusal.delta" => true
  | some "response.function_call_arguments.delta" => true
  | some "response.custom_tool_call_input.delta" => true
  | some "response.mcp_call_arguments.delta" => true
  | some "response.code_interpreter_call_code.delta" => true
  | _ => false

def hasOutputDelta (value : Json) (eventType : Option String) : Bool :=
  (isDeltaType eventType && hasText value ["delta"]) ||
    (decide (eventType = some "content_block_delta") &&
      (value.get "delta").any fun delta => hasText delta ["text", "partial_json"]) ||
    (decide (eventType = some "response.output_item.added") &&
      (value.get "item").any outputItemHasMeaningfulToolCall) ||
    ((value.get "choices").bind Json.asArray).any fun choices =>
      choices.any chatChoiceHasOutputDelta

/-- How an event ends its stream, if it does. -/
def outcomeOf : Option String → Option TerminalOutcome
  | some "response.completed" => some .success
  | some "response.done" => some .success
  | some "message_stop" => some .success
  | some "response.failed" => some .failure
  | some "response.cancelled" => some .failure
  | some "response.canceled" => some .failure
  | some "error" => some .failure
  | some "response.incomplete" => some .incomplete
  | _ => none

/-- The innermost identifier of a response, which may be nested twice. -/
def responseId (value : Json) : Option String :=
  trimmedText <|
    (((value.get "response").bind fun response => getIn response "response" "id").or
      (getIn value "response" "id")).or (value.get "id")

/-- An event with a JSON value. -/
def terminalEventOf (classifier : Classifier) (value : Json) : TerminalEvent :=
  let eventType := (value.get "type").bind Json.asStr
  { hasData := true
    valid := true
    hasOutputDelta := hasOutputDelta value eventType
    outcome := outcomeOf eventType
    errorCategory := classifier.failureCategory eventType value
    cooldownHint := classifier.cooldownHint value
    usage := findUsage value
    appliedServiceTier := responseServiceTier value
    responseId := responseId value
    response := value.get "response"
    outputItem := if eventType = some "response.output_item.done" then value.get "item" else none
    payload := some value }

def parseSseEvent (serde : Json.Serde) (classifier : Classifier) (event : List UInt8) :
    TerminalEvent :=
  let data := eventData event
  if data = [] then {}
  else if data = utf8 "[DONE]" then { hasData := true, valid := true, outcome := some .success }
  else
    match serde.fromSlice data with
    | none => { hasData := true }
    | some value => terminalEventOf classifier value

end Zenith.Gateway
