import Mathlib
import Zenith.Gateway.SseEvents
import Zenith.Lib.Framing

/-!
# The stream that is proxied to the client

`UsageStream` of `gateway/streaming.rs` forwards the chunks of an upstream stream and reads its
events on the way, to account for the attempt when it ends. `UsageCore` is its state without the
buffer of pending bytes; the buffer is the one of `Zenith.Framing`, which also drops what follows
the event that ends a stream (the source leaves it in a buffer that is not read again).

What a poll of the upstream gives is an input of `pollNext`, with the two timers. `completions`
records the calls of the completion callback. The diagnostics of tool use are left out.
-/

namespace Zenith.Gateway

open Zenith.Bytes Zenith.Framing Zenith.Protocol

def maxSseEventBytes : Nat := 16 * 1024 * 1024

def sseHeartbeat : List UInt8 := utf8 ": keep-alive\n\n"

/-- The statuses of `upstream_failure_status` for the categories it knows. -/
def failureStatuses : List (String × Nat) :=
  [("upstream_unauthorized", 401),
    ("upstream_account_disabled", 403), ("upstream_account_verification_required", 403),
    ("upstream_forbidden", 403), ("upstream_region_unsupported", 403),
    ("upstream_usage_not_included", 403),
    ("upstream_quota_exhausted", 429), ("upstream_rate_limited", 429),
    ("upstream_websocket_connection_limit", 429),
    ("upstream_model_not_found", 404), ("upstream_not_found", 404),
    ("upstream_model_unsupported", 406), ("upstream_websocket_unsupported", 426),
    ("upstream_request_timeout", 408), ("upstream_conflict", 409),
    ("upstream_payload_too_large", 413),
    ("response_affinity_miss", 400), ("upstream_previous_response_not_found", 400),
    ("upstream_tool_call_mismatch", 400), ("upstream_context_too_large", 400),
    ("upstream_encrypted_content_invalid", 400), ("upstream_instructions_required", 400),
    ("upstream_content_policy", 400), ("upstream_unsupported_request", 400),
    ("upstream_invalid_request", 400),
    ("upstream_candidate_rejected", 503),
    ("upstream_model_capacity", 503), ("upstream_overloaded", 503), ("upstream_unavailable", 503),
    ("upstream_edge_challenge", 503),
    ("upstream_server_error", 500), ("upstream_gateway_timeout", 504)]

def upstreamFailureStatus (category : String) : Nat := (failureStatuses.lookup category).getD 502

/-- One call of the completion callback. -/
structure Completion where
  event : UsageEvent
  responseId : Option String
  cooldownHint : Json

structure UsageCore where
  event : Option UsageEvent
  responseId : Option String := none
  /-- Is the whole response kept for a replay? -/
  capturesResponse : Bool := false
  nativeResponse : Option Json := none
  nativeGemini : Bool
  nativeOutputItems : List Json := []
  cooldownHint : Json := .null
  outputPending : List (List UInt8) := []
  terminated : Bool := false
  completions : List Completion := []

namespace UsageCore

def new (event : UsageEvent) (capturesResponse : Bool) : UsageCore :=
  { event := some event, capturesResponse, nativeGemini := decide (event.wireApi = .gemini) }

/-- The status of a failed attempt that has none yet. -/
def finalStatus (event : UsageEvent) : Nat :=
  if !event.success ∧ event.httpStatus < 400 ∧ event.errorCategory ≠ some "response_incomplete" then
    ((event.errorCategory.filter fun category => category ≠ "client_cancelled").map
      upstreamFailureStatus).getD 502
  else event.httpStatus

/-- `elapsed` is the time since the start, in milliseconds. -/
def finish (s : UsageCore) (elapsed : Nat) (success : Option Bool) (category : Option String) :
    UsageCore :=
  match s.event with
  | none => s
  | some event =>
    let event := { event with
      success := success.getD event.success
      errorCategory := category.or event.errorCategory }
    let event := { event with
      httpStatus := finalStatus event
      latencyMs := elapsed
      generationMs := (event.ttftMs.map fun ttft => elapsed - ttft).filter fun duration =>
        0 < duration }
    { s with
      event := none
      completions := s.completions ++ [⟨event, s.responseId, s.cooldownHint⟩] }

def failureMessage : String → String
  | "stream_invalid" => "Upstream returned an invalid streaming event"
  | "stream_event_too_large" => "Upstream streaming event exceeded the size limit"
  | "stream_incomplete" => "Upstream stream ended before response.completed"
  | _ => "Upstream stream disconnected before completion"

/-- The JSON of a `response.failed` event. -/
def failurePayload (s : UsageCore) (event : UsageEvent) (category : String) : Json :=
  let responseId := s.responseId.getD
    ("resp_" ++ String.ofList (event.requestId.toList.filter Char.isAlphanum))
  .ofFields
    [("type", .string "response.failed"),
      ("response", .ofFields
        [("id", .string responseId), ("object", .string "response"),
          ("model", .string (event.requestedModel.getD "")), ("status", .string "failed"),
          ("output", .array []),
          ("error", .ofFields
            [("type", .string "stream_error"), ("code", .string category),
              ("message", .string (failureMessage category)),
              ("zenith_relay", .ofFields
                [("origin", .string (if event.accountId.isSome then "account" else "provider")),
                  ("category", .string category), ("request_id", .string event.requestId)])])])]

/-- The `response.failed` frame. -/
def failureFrame (serde : Json.Serde) (s : UsageCore) (event : UsageEvent) (category : String) :
    List UInt8 :=
  utf8 "event: response.failed\ndata: " ++ utf8 (serde.toString (s.failurePayload event category)) ++
    utf8 "\n\n"

/-- Clients of the Responses API get a failure as an event. -/
def queueResponsesFailure (serde : Json.Serde) (s : UsageCore) (category : String) :
    UsageCore × Bool :=
  match s.event with
  | none => (s, false)
  | some event =>
    if event.wireApi ≠ .responses then (s, false)
    else
      ({ s with outputPending := s.outputPending ++ [s.failureFrame serde event category] }, true)

def failStream (serde : Json.Serde) (s : UsageCore) (elapsed : Nat) (category : String) :
    UsageCore × Bool :=
  let (s, framed) := s.queueResponsesFailure serde category
  ({ s.finish elapsed (some false) (some category) with terminated := true }, framed)

/-- Sets a field that is not there. -/
def entryOr (fields : Json.Fields) (key : String) (value : Json) : Json.Fields :=
  if (Json.Fields.get fields key).isSome then fields else Json.Fields.insert fields key value

/-- Keeps the whole response, with the items that were streamed if it has none. -/
def captureNativeResponse (s : UsageCore) (response : Option Json) : UsageCore :=
  if !s.capturesResponse then s
  else
    let response := response.getD
      (.ofFields [("id", .ofOption s.responseId), ("output", .array s.nativeOutputItems)])
    let response := match response with
      | .object fields =>
        let fields := entryOr fields "id" (.ofOption s.responseId)
        if ((Json.Fields.get fields "output").bind Json.asArray).getD [] = [] then
          .object (Json.Fields.insert fields "output" (.array s.nativeOutputItems))
        else .object fields
      | response => response
    { s with nativeResponse := some response }

/-- What an event says about the attempt, besides how it ends. -/
def observe (s : UsageCore) (elapsed : Nat) (terminal : TerminalEvent) : UsageCore :=
  { s with
    event := s.event.map fun event =>
      let event := { event with
        ttftMs := if terminal.hasOutputDelta && event.ttftMs.isNone then some elapsed
          else event.ttftMs }
      let event := match terminal.usage with
        | none => event
        | some usage => applyUsage event usage
      { event with appliedServiceTier := terminal.appliedServiceTier.or event.appliedServiceTier }
    responseId := terminal.responseId.or s.responseId
    nativeOutputItems := s.nativeOutputItems ++ terminal.outputItem.toList }

/-- One event that was read. -/
def handleTerminalEvent (serde : Json.Serde) (s : UsageCore) (elapsed : Nat)
    (terminal : TerminalEvent) : UsageCore :=
  if terminal.hasData && !terminal.valid then (s.failStream serde elapsed "stream_invalid").1
  else
    let s := s.observe elapsed terminal
    match terminal.outcome with
    | some .success =>
      { (s.captureNativeResponse terminal.response).finish elapsed none none with
        terminated := true }
    | some .incomplete =>
      { (s.captureNativeResponse terminal.response).finish elapsed (some false)
          (some (terminal.errorCategory.getD "response_incomplete")) with
        terminated := true }
    | some .failure =>
      { { s with cooldownHint := terminal.cooldownHint }.finish elapsed (some false)
          (some (terminal.errorCategory.getD "upstream_terminal")) with
        terminated := true }
    | none => s

def handleEvent (serde : Json.Serde) (classifier : Classifier) (elapsed : Nat) (s : UsageCore)
    (event : List UInt8) : UsageCore :=
  if maxSseEventBytes < event.length then (s.failStream serde elapsed "stream_event_too_large").1
  else s.handleTerminalEvent serde elapsed (parseSseEvent serde classifier event)

/-- An event of a native Gemini stream: only usage and the time to the first token are read. -/
def handleGeminiEvent (serde : Json.Serde) (classifier : Classifier) (elapsed : Nat) (s : UsageCore)
    (event : List UInt8) : UsageCore :=
  let terminal := parseSseEvent serde classifier event
  { s with
    event := s.event.map fun event =>
      let event := match terminal.usage with
        | none => event
        | some usage => applyUsage event usage
      { event with
        ttftMs := if terminal.hasOutputDelta && event.ttftMs.isNone then some elapsed
          else event.ttftMs } }

end UsageCore

/-! ## The stream -/

abbrev UsageStream := Framed UInt8 UsageCore

/-- What a poll of the upstream gives; `idle` and `heartbeat` say whether the two timers are due. -/
inductive Upstream
  | chunk (bytes : List UInt8)
  | error
  | ended
  | pending (idle heartbeat : Bool)

/-- What a poll of the stream gives. -/
inductive Polled
  | bytes (bytes : List UInt8)
  | error
  | ended
  | pending
deriving DecidableEq

namespace UsageStream

def new (event : UsageEvent) (capturesResponse : Bool) : UsageStream :=
  { core := UsageCore.new event capturesResponse }

/-- `ingest_sse` and `ingest_native_gemini`. -/
def ingest (serde : Json.Serde) (classifier : Classifier) (elapsed : Nat) (s : UsageStream)
    (bytes : List UInt8) : UsageStream :=
  if s.core.terminated then s
  else if maxSseEventBytes < s.pending.length + bytes.length then
    { core := (s.core.failStream serde elapsed "stream_event_too_large").1, pending := [] }
  else if s.core.nativeGemini then
    Framing.push eventEnd (UsageCore.handleGeminiEvent serde classifier elapsed)
      UsageCore.terminated s bytes
  else
    Framing.push eventEnd (UsageCore.handleEvent serde classifier elapsed) UsageCore.terminated s
      bytes

/-- Gives the next frame that waits, if there is one. -/
def popOutput (s : UsageStream) : Option (List UInt8 × UsageStream) :=
  match s.core.outputPending with
  | [] => none
  | frame :: rest => some (frame, { s with core := { s.core with outputPending := rest } })

/-- After a failure: its frame if there is one, else what is given. -/
def afterFailure (s : UsageStream) (otherwise : Polled) : UsageStream × Polled :=
  match s.popOutput with
  | some (frame, s) => (s, .bytes frame)
  | none => (s, otherwise)

/-- The upstream has ended. -/
def upstreamEnded (serde : Json.Serde) (elapsed : Nat) (s : UsageStream) : UsageStream × Polled :=
  if s.core.nativeGemini then
    ({ core := { s.core.finish elapsed (some true) none with terminated := true } }, .ended)
  else if s.core.event.any UsageEvent.success then
    afterFailure { s with core := (s.core.failStream serde elapsed "stream_incomplete").1 } .ended
  else ({ core := { s.core.finish elapsed none none with terminated := true } }, .ended)

/-- The upstream is polled. -/
def pollUpstream (serde : Json.Serde) (classifier : Classifier) (elapsed : Nat) (s : UsageStream) :
    Upstream → UsageStream × Polled
  | .chunk bytes => afterFailure (s.ingest serde classifier elapsed bytes) (.bytes bytes)
  | .error =>
    afterFailure { s with core := (s.core.failStream serde elapsed "upstream_stream").1 } .error
  | .ended => s.upstreamEnded serde elapsed
  | .pending true _ =>
    afterFailure { s with core := (s.core.failStream serde elapsed "stream_idle_timeout").1 } .ended
  | .pending false true => (s, .bytes sseHeartbeat)
  | .pending false false => (s, .pending)

def pollNext (serde : Json.Serde) (classifier : Classifier) (elapsed : Nat) (s : UsageStream)
    (upstream : Upstream) : UsageStream × Polled :=
  match s.popOutput with
  | some (frame, s) => (s, .bytes frame)
  | none => if s.core.terminated then (s, .ended) else s.pollUpstream serde classifier elapsed upstream

def drop (elapsed : Nat) (s : UsageStream) : UsageStream :=
  { s with core := s.core.finish elapsed (some false) (some "client_cancelled") }

end UsageStream

end Zenith.Gateway
