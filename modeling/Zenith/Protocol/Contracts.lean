import Mathlib
import Zenith.Lib.Json
import Zenith.Lib.Tables
import Zenith.Lib.Text

/-!
# Contracts of the adapters

What the bridges share, from `protocol/adapter/contracts.rs`: the errors, the tools of a client and
their upstream names, the continuation state, and the items of a Responses output.

The items and bodies that the source builds with `json!` are structures here; `json` gives the
value the source builds.
-/

namespace Zenith.Protocol

open Std (ExtTreeMap)
open Zenith.Tables Zenith.Text

/-- An error of an adapter: its code and its message. -/
structure AdapterError where
  code : String
  message : String
deriving DecidableEq, Repr

namespace AdapterError

def invalidRequest : AdapterError :=
  ⟨"adapter_invalid_request", "request cannot be represented by the selected source adapter"⟩

def continuationMissing : AdapterError :=
  ⟨"adapter_continuation_missing",
    "the adapter no longer has the prior response needed for this continuation"⟩

def continuationMismatch : AdapterError :=
  ⟨"adapter_continuation_mismatch",
    "the continuation belongs to a different model or source route"⟩

def upstreamResponseInvalid : AdapterError :=
  ⟨"adapter_upstream_response_invalid",
    "the upstream response cannot be represented as a Responses response"⟩

def upstreamStreamInvalid : AdapterError :=
  ⟨"adapter_upstream_stream_invalid",
    "the upstream stream cannot be represented as a Responses stream"⟩

/-- Another route may serve the request. -/
def isRouteIncompatible (error : AdapterError) : Bool :=
  error.code ∈ ["adapter_tool_unsupported", "adapter_reasoning_unsupported"]

end AdapterError

abbrev AdapterResult := Except AdapterError

/-- The libraries that the adapters call. -/
structure Libraries where
  serde : Json.Serde
  sha256 : List UInt8 → List UInt8
  decodeBase64 : String → Option (List UInt8)

/-- Libraries for examples that read the given texts. The digest is the one of `a`. -/
def Libraries.ofTexts (texts : List (String × Json)) : Libraries where
  serde := .ofTexts texts
  sha256 _ := [0xca, 0x97, 0x81, 0x12, 0xca, 0x1b, 0xbd, 0xca, 0xfa, 0xc2, 0x31, 0xb3, 0x9a, 0x23, 0xdc,
    0x4d, 0xa7, 0x86, 0xef, 0xf8, 0x14, 0x7c, 0x4e, 0x72, 0xb9, 0x80, 0x77, 0x85, 0xaf, 0xee, 0x48, 0xbb]
  decodeBase64 _ := none

/-- `Option::ok_or_else`. -/
def okOr {α : Type} (value : Option α) (error : AdapterError) : AdapterResult α :=
  match value with
  | some a => .ok a
  | none => .error error

theorem okOr_eq_ok {α : Type} {value : Option α} {error : AdapterError} {a : α} :
    okOr value error = .ok a ↔ value = some a := by
  cases value <;> simp [okOr]

/-- A string that is there and not blank, without the white space around it. -/
def trimmedText (value : Option Json) : Option String :=
  ((value.bind Json.asStr).map trim).filter fun text => text ≠ ""

inductive MessagesReasoningMode
  | disabled
  | budget
  | adaptive
deriving DecidableEq, Repr

/-! ## Tools -/

inductive ResponsesToolKind
  | function
  | custom
deriving DecidableEq, Repr

namespace ResponsesToolKind

def responseItemType : ResponsesToolKind → String
  | .function => "function_call"
  | .custom => "custom_tool_call"

end ResponsesToolKind

structure ClientToolTarget where
  kind : ResponsesToolKind
  name : String
  nameSpace : Option String
deriving DecidableEq, Repr

def customToolItemId (callId : String) : String :=
  let callId := trim callId
  if startsWith callId "ctc_" then callId else "ctc_" ++ callId

/-! ## The continuation state -/

structure MessagesBridgeState where
  model : String
  system : Option Json := none
  messages : List Json := []
  tools : Option (List Json) := none
  toolTargets : Table String ClientToolTarget := ∅
  toolChoice : Option Json := none
  toolAllowList : Option (List String) := none
  reasoningMode : MessagesReasoningMode

namespace MessagesBridgeState

def new (model : String) (reasoningMode : MessagesReasoningMode) : MessagesBridgeState :=
  { model, reasoningMode }

def appendAssistantContent (state : MessagesBridgeState) (content : List Json) :
    MessagesBridgeState :=
  if content = [] then state
  else { state with
    messages := state.messages ++
      [.ofFields [("role", .string "assistant"), ("content", .array content)]] }

/-- The tools that are sent upstream: those the allow list has, if there is one. -/
def upstreamTools (state : MessagesBridgeState) : Option (List Json) :=
  let tools := state.tools.map fun tools =>
    match state.toolAllowList with
    | none => tools
    | some allowed => tools.filter fun tool =>
      ((tool.get "name").bind Json.asStr).any fun name => decide (name ∈ allowed)
  tools.filter fun tools => !tools.isEmpty

def allowsToolName (state : MessagesBridgeState) (name : String) : Bool :=
  state.upstreamTools.any fun tools =>
    tools.any fun tool => (tool.get "name").bind Json.asStr = some name

def clientTool (state : MessagesBridgeState) (upstreamName : String) : Option ClientToolTarget :=
  state.toolTargets[upstreamName]?.filter fun _ => state.allowsToolName upstreamName

end MessagesBridgeState

structure MessagesBridgeRequest where
  upstreamBody : Json
  state : MessagesBridgeState
  responseScope : String

/-! ## Items of a Responses output -/

inductive ItemStatus
  | inProgress
  | completed
deriving DecidableEq, Repr

def ItemStatus.text : ItemStatus → String
  | .inProgress => "in_progress"
  | .completed => "completed"

/-- A call of a tool. `payload` is the arguments of a function as JSON text, or the input of a custom
tool. -/
structure ToolCallItem where
  kind : ResponsesToolKind
  id : String
  status : ItemStatus
  callId : String
  name : String
  nameSpace : Option String
  payload : String
deriving DecidableEq, Repr

inductive OutputItem
  /-- A message with its texts. -/
  | message (id : String) (status : ItemStatus) (texts : List String)
  | reasoning (id : String) (status : ItemStatus) (summary : List String)
  | toolCall (call : ToolCallItem)
deriving DecidableEq, Repr

def outputText (text : String) : Json :=
  .ofFields [("type", .string "output_text"), ("text", .string text), ("annotations", .array [])]

namespace OutputItem

def json : OutputItem → Json
  | .message id status texts => .ofFields [("id", .string id), ("type", .string "message"),
      ("status", .string status.text), ("role", .string "assistant"),
      ("content", .array (texts.map outputText))]
  | .reasoning id status summary => .ofFields [("id", .string id), ("type", .string "reasoning"),
      ("status", .string status.text),
      ("summary", .array (summary.map fun text =>
        .ofFields [("type", .string "summary_text"), ("text", .string text)]))]
  | .toolCall call => .ofFields <|
      [("id", .string call.id), ("type", .string call.kind.responseItemType),
        ("status", .string call.status.text), ("call_id", .string call.callId),
        ("name", .string call.name),
        (match call.kind with
          | .function => "arguments"
          | .custom => "input", .string call.payload)] ++
      call.nameSpace.toList.map fun name => ("namespace", .string name)

end OutputItem

/-- A completed Responses object. `incomplete` is the reason why the upstream stopped early. -/
structure ResponseBody where
  id : String
  createdAt : Nat := 0
  incomplete : Option String := none
  model : String
  output : List OutputItem
  usage : Json

def ResponseBody.json (body : ResponseBody) : Json :=
  .ofFields <|
    [("id", .string body.id), ("object", .string "response"), ("created_at", .ofNat body.createdAt),
      ("status", .string (if body.incomplete.isSome then "incomplete" else "completed")),
      ("model", .string body.model), ("output", .array (body.output.map OutputItem.json)),
      ("usage", body.usage)] ++
    body.incomplete.toList.map fun reason =>
      ("incomplete_details", .ofFields [("reason", .string reason)])

structure MessagesBridgeResponse where
  responseBody : ResponseBody
  responseId : String
  continuation : MessagesBridgeState

end Zenith.Protocol
