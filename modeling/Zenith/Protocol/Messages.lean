import Mathlib
import Zenith.Protocol.Contracts

/-!
# Responses of the Messages bridge

The translation of a complete Anthropic message to a Responses object, from
`protocol/adapter/messages.rs`: the check of its tool calls, the output items, the identifiers and
the usage.
-/

namespace Zenith.Protocol

open Zenith.Bytes Zenith.Tables Zenith.Text

/-- The first twelve bytes of a digest, in hexadecimal. -/
def shortDigest (lib : Libraries) (bytes : List UInt8) : String :=
  hexEncode ((lib.sha256 bytes).take 12)

/-- The length of a string in bytes, then the string. -/
def lengthPrefixed (text : String) : List UInt8 :=
  u64LeBytes (utf8 text).length ++ utf8 text

def bridgedResponseIdScoped (lib : Libraries) (scope upstreamId : String) : String :=
  if scope = "" then "resp_bridge_" ++ shortDigest lib (utf8 upstreamId)
  else "resp_bridge_" ++ shortDigest lib (lengthPrefixed scope ++ lengthPrefixed upstreamId)

/-- The text of a custom tool's input: the only field of its object. -/
def customToolInput (input : Json) : AdapterResult String := do
  let fields ← okOr input.asObject AdapterError.upstreamResponseInvalid
  if fields.length ≠ 1 then
    throw AdapterError.upstreamResponseInvalid
  else
    okOr ((fields.get "input").bind Json.asStr) AdapterError.upstreamResponseInvalid

/-! ## Tool calls -/

/-- One block of `validate_messages_tool_calls`; `callIds` are the identifiers seen so far. -/
def validateBlock (state : MessagesBridgeState) (callIds : List String) (block : Json) :
    AdapterResult (List String) := do
  let fields ← okOr block.asObject AdapterError.upstreamResponseInvalid
  if (fields.get "type").bind Json.asStr ≠ some "tool_use" then
    return callIds
  else
    let id ← okOr (trimmedText (fields.get "id")) AdapterError.upstreamResponseInvalid
    let name ← okOr (trimmedText (fields.get "name")) AdapterError.upstreamResponseInvalid
    if !(fields.get "input").any Json.isObject || !state.allowsToolName name ||
        decide (id ∈ callIds) then
      throw AdapterError.upstreamResponseInvalid
    else
      return id :: callIds

def validateMessagesToolCalls (state : MessagesBridgeState) (content : List Json) :
    AdapterResult Unit := do
  let _ ← content.foldlM (validateBlock state) []

/-! ## The output -/

/-- What is built from the blocks so far. `text` has the texts that are not in a message yet. -/
structure OutputBuilder where
  output : List OutputItem := []
  preserved : List Json := []
  text : List String := []
  textMessageIndex : Nat := 0

/-- The identifier of a message, by how many messages come before it. -/
def messageId (stem : String) (index : Nat) : String :=
  if index = 0 then stem else stem ++ "_" ++ toString index

def OutputBuilder.flushText (builder : OutputBuilder) : OutputBuilder :=
  if builder.text = [] then builder
  else { builder with
    output := builder.output ++
      [.message (messageId "msg_bridge_output" builder.textMessageIndex) .completed builder.text]
    text := []
    textMessageIndex := builder.textMessageIndex + 1 }

/-- A call of the tool `target`. -/
def toolCallItem (target : ClientToolTarget) (callId : String) (status : ItemStatus)
    (payload : String) : ToolCallItem where
  kind := target.kind
  id := match target.kind with
    | .function => callId
    | .custom => customToolItemId callId
  status
  callId
  name := target.name
  nameSpace := target.nameSpace
  payload

/-- What the client gets as the arguments or the input of a call. -/
def toolPayload (lib : Libraries) (kind : ResponsesToolKind) (input : Json) : AdapterResult String :=
  match kind with
  | .function => .ok (lib.serde.toString input)
  | .custom => customToolInput input

def outputBlock (lib : Libraries) (state : MessagesBridgeState) (builder : OutputBuilder)
    (block : Json) : AdapterResult OutputBuilder := do
  let fields ← okOr block.asObject AdapterError.upstreamResponseInvalid
  match (fields.get "type").bind Json.asStr with
  | some "text" =>
    let value ← okOr ((fields.get "text").bind Json.asStr) AdapterError.upstreamResponseInvalid
    return { builder with
      text := if value = "" then builder.text else builder.text ++ [value]
      preserved := builder.preserved ++ [block] }
  | some "tool_use" =>
    let builder := builder.flushText
    let callId ← okOr (trimmedText (fields.get "id")) AdapterError.upstreamResponseInvalid
    let name ← okOr (trimmedText (fields.get "name")) AdapterError.upstreamResponseInvalid
    let target ← okOr (state.clientTool name) AdapterError.upstreamResponseInvalid
    let input ← okOr ((fields.get "input").filter Json.isObject)
      AdapterError.upstreamResponseInvalid
    let payload ← toolPayload lib target.kind input
    return { builder with
      output := builder.output ++ [.toolCall (toolCallItem target callId .completed payload)]
      preserved := builder.preserved ++ [block] }
  -- A thinking block stays in the state of the bridge; it is no item of the output.
  | some "thinking" => return { builder with preserved := builder.preserved ++ [block] }
  | some "redacted_thinking" => return { builder with preserved := builder.preserved ++ [block] }
  | _ => throw AdapterError.upstreamResponseInvalid

def responsesOutputFromMessagesContent (lib : Libraries) (content : List Json)
    (state : MessagesBridgeState) : AdapterResult (List OutputItem × List Json) := do
  let builder ← content.foldlM (outputBlock lib state) {}
  let builder := builder.flushText
  if builder.output = [] then
    throw AdapterError.upstreamResponseInvalid
  else
    return (builder.output, builder.preserved)

/-- Gives the messages of an output their identifiers; `index` counts them. -/
def setMessageOutputIds (responseId : String) : Nat → List OutputItem → List OutputItem
  | _, [] => []
  | index, .message _ status texts :: output =>
    .message (messageId ("msg_" ++ responseId) index) status texts ::
      setMessageOutputIds responseId (index + 1) output
  | index, item :: output => item :: setMessageOutputIds responseId index output

def setMessageOutputId (output : List OutputItem) (responseId : String) : List OutputItem :=
  setMessageOutputIds responseId 0 output

/-! ## Usage -/

/-- A counter of a usage object. -/
def usageCounter (usage : Option Json) (key : String) : Option Nat :=
  (usage.bind fun usage => usage.get key).bind Json.asU64

def cacheWriteTtlFromUsage (usage : Json) : Option String :=
  match usage.get "cache_creation" with
  | none => none
  | some creation =>
    if (usageCounter (some creation) "ephemeral_1h_input_tokens").any (0 < ·) then some "1h"
    else if (usageCounter (some creation) "ephemeral_5m_input_tokens").any (0 < ·) then some "5m"
    else none

def responsesUsage (usage : Option Json) : Json :=
  let inputTokens := (usageCounter usage "input_tokens").getD 0
  let outputTokens := (usageCounter usage "output_tokens").getD 0
  let details :=
    (usageCounter usage "cache_read_input_tokens").toList.map (fun n =>
      ("cached_tokens", Json.ofNat n)) ++
    (usageCounter usage "cache_creation_input_tokens").toList.map (fun n =>
      ("cache_write_tokens", Json.ofNat n)) ++
    (usage.bind cacheWriteTtlFromUsage).toList.map fun ttl => ("cache_write_ttl", Json.string ttl)
  .ofFields <|
    [("input_tokens", .ofNat inputTokens), ("output_tokens", .ofNat outputTokens),
      ("total_tokens", .ofNat (satAdd 64 inputTokens outputTokens))] ++
    if details = [] then [] else [("input_tokens_details", .ofFields details)]

end Zenith.Protocol
