import Mathlib
import Zenith.Protocol.Messages

/-!
# Responses of the Gemini bridge

The translation of a Gemini candidate to a Responses object, from `protocol/adapter/gemini.rs`,
with the patches by which Gemini sends the arguments of a call in pieces.
-/

namespace Zenith.Protocol

open Zenith.Tables Zenith.Text

structure GeminiBridgeRequest where
  upstreamBody : Json
  model : String
  responseId : String
  state : MessagesBridgeState

/-- The last message of a conversation with more parts, if it has the role and parts. -/
def extendLast (last : Json) (role : String) (parts : List Json) : Option Json :=
  match last.asObject, (last.get "role").bind Json.asStr, (last.get "parts").bind Json.asArray with
  | some fields, some lastRole, some existing =>
    if lastRole = role then some (.object (fields.insert "parts" (.array (existing ++ parts))))
    else none
  | _, _, _ => none

/-- Adds parts to the conversation: to its last message if that has the role. -/
def appendMessage (state : MessagesBridgeState) (role : String) (parts : List Json) :
    MessagesBridgeState :=
  if parts = [] then state
  else
    match state.messages.getLast?.bind fun last => extendLast last role parts with
    | some last => { state with messages := state.messages.dropLast ++ [last] }
    | none => { state with
        messages := state.messages ++
          [.ofFields [("role", .string role), ("parts", .array parts)]] }

/-! ## Patches of arguments -/

inductive JsonPathSegment
  | key (key : String)
  | index (index : Nat)
deriving DecidableEq, Repr

def isKeyChar (c : Char) : Bool := c.isAlphanum || c = '_' || c = '-'

/-- `str::parse::<usize>` on digits. -/
def parseIndex (digits : List Char) : Option Nat :=
  if digits = [] then none
  else
    let n := digits.foldl (fun n digit => 10 * n + (digit.toNat - '0'.toNat)) 0
    if n < 2 ^ 64 then some n else none

/-- The segments after the `$` of a path. Each takes at least one character, so the length of the
text is enough fuel. -/
def parseSegments : Nat → List Char → Option (List JsonPathSegment)
  | _, [] => some []
  | 0, _ :: _ => none
  | fuel + 1, '.' :: rest =>
    let key := rest.takeWhile isKeyChar
    if key = [] then none
    else (parseSegments fuel (rest.drop key.length)).map (.key (String.ofList key) :: ·)
  | fuel + 1, '[' :: '"' :: rest =>
    let key := rest.takeWhile (· ≠ '"')
    match rest.drop key.length with
    | '"' :: ']' :: rest => (parseSegments fuel rest).map (.key (String.ofList key) :: ·)
    | _ => none
  | fuel + 1, '[' :: rest =>
    let digits := rest.takeWhile Char.isDigit
    match parseIndex digits, rest.drop digits.length with
    | some index, ']' :: rest => (parseSegments fuel rest).map (.index index :: ·)
    | _, _ => none
  | _ + 1, _ :: _ => none

def parseJsonPath (path : String) : Option (List JsonPathSegment) :=
  match path.toList with
  | '$' :: rest => parseSegments rest.length rest
  | _ => none

/-- What a path creates where there is nothing yet. -/
def emptyAt : List JsonPathSegment → Json
  | .index _ :: _ => .array []
  | _ => .ofFields []

/-- Sets the value at a path. Indices past the end of an array fill it up with `null`. -/
def setJsonPathSegments (value : Json) : List JsonPathSegment → Json → AdapterResult Json
  | [], _ => .ok value
  | .key key :: segments, current => do
    let fields ← okOr current.asObject AdapterError.invalidRequest
    let child ← setJsonPathSegments value segments ((fields.get key).getD (emptyAt segments))
    return .object (fields.insert key child)
  | .index index :: segments, current => do
    let items ← okOr current.asArray AdapterError.invalidRequest
    let items := items ++ List.replicate (index + 1 - items.length) .null
    let old := items[index]?.getD .null
    let child ← setJsonPathSegments value segments (if old.isNull then emptyAt segments else old)
    return .array (items.set index child)

def setJsonPath (target : Json) (path : String) (value : Json) : AdapterResult Json := do
  let segments ← okOr (parseJsonPath path) AdapterError.invalidRequest
  if segments = [] then throw AdapterError.invalidRequest
  else setJsonPathSegments value segments target

/-- The value of a patch: the first of these fields that it has. -/
def partialArgValue (lib : Libraries) (patch : Json.Fields) : Option Json :=
  let keys := ["stringValue", "numberValue", "boolValue", "booleanValue", "nullValue", "jsonValue",
    "value"]
  match keys.find? fun key => (patch.get key).isSome with
  | none => none
  | some key =>
    match key, (patch.get key).bind Json.asStr with
    | "jsonValue", some text => lib.serde.fromStr text
    | _, _ => patch.get key

def applyPatch (lib : Libraries) (target patch : Json) : AdapterResult Json := do
  let patch ← okOr patch.asObject AdapterError.invalidRequest
  let path ← okOr ((patch.get "jsonPath").bind Json.asStr) AdapterError.invalidRequest
  match partialArgValue lib patch with
  | none => return target
  | some value =>
    -- An empty string does not erase what is there.
    if value.asStr = some "" then return target else setJsonPath target path value

def applyPartialArgs (lib : Libraries) (target partialArgs : Json) : AdapterResult Json := do
  let patches ← okOr partialArgs.asArray AdapterError.invalidRequest
  patches.foldlM (applyPatch lib) target

def functionCallArgs (lib : Libraries) (call : Json.Fields) : AdapterResult Json := do
  let args := (call.get "args").getD (.ofFields [])
  if !args.isObject then throw AdapterError.invalidRequest
  else
    match call.get "partialArgs" with
    | none => return args
    | some partialArgs => applyPartialArgs lib args partialArgs

/-! ## The output -/

/-- What is built from the parts so far, with the text and the reasoning that are not in an item
yet. -/
structure GeminiOutputBuilder where
  output : List OutputItem := []
  text : String := ""
  reasoning : String := ""
  callIndex : Nat := 0

namespace GeminiOutputBuilder

def flushText (responseId : String) (builder : GeminiOutputBuilder) : GeminiOutputBuilder :=
  if builder.text = "" then builder
  else { builder with
    output := builder.output ++
      [.message ("msg_" ++ responseId ++ "_" ++ toString builder.output.length) .completed
        [builder.text]]
    text := "" }

def flushReasoning (responseId : String) (builder : GeminiOutputBuilder) : GeminiOutputBuilder :=
  if builder.reasoning = "" then builder
  else { builder with
    output := builder.output ++
      [.reasoning ("reasoning_" ++ responseId ++ "_" ++ toString builder.output.length) .completed
        [builder.reasoning]]
    reasoning := "" }

end GeminiOutputBuilder

/-- The identifier of a call: the upstream one, or one made up from the place of the call. -/
def geminiCallId (responseId : String) (call : Json.Fields) (place : Nat) : String :=
  (((call.get "id").bind Json.asStr).filter fun id => id ≠ "").getD
    ("call_" ++ responseId ++ "_" ++ toString place)

/-- What the client gets as the arguments or the input of a call. -/
def geminiPayload (lib : Libraries) (kind : ResponsesToolKind) (args : Json) :
    AdapterResult String :=
  match kind with
  | .function => .ok (lib.serde.toString args)
  | .custom => okOr ((args.get "input").bind Json.asStr) AdapterError.upstreamResponseInvalid

def outputCall (lib : Libraries) (request : GeminiBridgeRequest) (builder : GeminiOutputBuilder)
    (call : Json.Fields) : AdapterResult GeminiOutputBuilder := do
  let upstreamName ← okOr (((call.get "name").bind Json.asStr).filter request.state.allowsToolName)
    AdapterError.upstreamResponseInvalid
  let target ← okOr (request.state.clientTool upstreamName) AdapterError.upstreamResponseInvalid
  let callId := geminiCallId request.responseId call builder.callIndex
  match functionCallArgs lib call with
  | .error _ => throw AdapterError.upstreamResponseInvalid
  | .ok args =>
    let payload ← geminiPayload lib target.kind args
    return { builder with
      output := builder.output ++ [.toolCall (toolCallItem target callId .completed payload)]
      callIndex := builder.callIndex + 1 }

def outputPart (lib : Libraries) (request : GeminiBridgeRequest) (builder : GeminiOutputBuilder)
    (value : Json) : AdapterResult GeminiOutputBuilder := do
  let part ← okOr value.asObject AdapterError.upstreamResponseInvalid
  match (part.get "text").bind Json.asStr with
  | some text =>
    if (part.get "thought").bind Json.asBool = some true then
      let builder := builder.flushText request.responseId
      return { builder with reasoning := builder.reasoning ++ text }
    else
      let builder := builder.flushReasoning request.responseId
      return { builder with text := builder.text ++ text }
  | none =>
    match (part.get "functionCall").bind Json.asObject with
    | none =>
      if (part.get "thoughtSignature").isSome then return builder
      else throw AdapterError.upstreamResponseInvalid
    | some call =>
      outputCall lib request
        ((builder.flushText request.responseId).flushReasoning request.responseId) call

def responsesOutputFromGeminiParts (lib : Libraries) (request : GeminiBridgeRequest)
    (parts : List Json) : AdapterResult (List OutputItem) := do
  let builder ← parts.foldlM (outputPart lib request) {}
  return ((builder.flushText request.responseId).flushReasoning request.responseId).output

/-! ## The translation -/

def geminiResponsesUsage (usage : Option Json) : Json :=
  let input := (usageCounter usage "promptTokenCount").getD 0
  let output := (usageCounter usage "candidatesTokenCount").getD 0
  let total := (usageCounter usage "totalTokenCount").getD (satAdd 64 input output)
  .ofFields <|
    [("input_tokens", .ofNat input), ("output_tokens", .ofNat output),
      ("total_tokens", .ofNat total)] ++
    (usageCounter usage "cachedContentTokenCount").toList.map (fun n =>
      ("input_tokens_details", .ofFields [("cached_tokens", .ofNat n)])) ++
    (usageCounter usage "thoughtsTokenCount").toList.map fun n =>
      ("output_tokens_details", .ofFields [("reasoning_tokens", .ofNat n)])

/-- The reason why a response is not complete. -/
def incompleteReason (candidate : Json) : Option String :=
  (((candidate.get "finishReason").bind Json.asStr).filter fun reason =>
    reason ≠ "STOP" && reason ≠ "FINISH_REASON_UNSPECIFIED").map asciiLower

/-- `/content/parts` of a candidate. -/
def candidateParts (candidate : Json) : Option (List Json) :=
  ((candidate.get "content").bind fun content => content.get "parts").bind Json.asArray

def firstCandidate (upstream : Json) : Option Json :=
  ((upstream.get "candidates").bind Json.asArray).bind List.head?

def translateGeminiResponse (lib : Libraries) (request : GeminiBridgeRequest) (upstream : Json) :
    AdapterResult MessagesBridgeResponse := do
  let candidate ← okOr (firstCandidate upstream) AdapterError.upstreamResponseInvalid
  let parts ← okOr (candidateParts candidate) AdapterError.upstreamResponseInvalid
  let output ← responsesOutputFromGeminiParts lib request parts
  if output = [] then throw AdapterError.upstreamResponseInvalid
  else
    return {
      responseBody := {
        id := request.responseId
        incomplete := incompleteReason candidate
        model := request.model
        output
        usage := geminiResponsesUsage (upstream.get "usageMetadata") }
      responseId := request.responseId
      continuation := appendMessage request.state "model" parts }

end Zenith.Protocol
