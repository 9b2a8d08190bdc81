import Mathlib
import Zenith.Lib.Framing
import Zenith.Protocol.Frames
import Zenith.Protocol.Gemini
import Zenith.Protocol.Sse

/-!
# The stream bridge for Gemini

`GeminiStreamBridge` of `protocol/adapter/stream.rs`: it turns the chunks of a Gemini stream into the
frames of a Responses stream. `GeminiStream` is its state without the buffer of pending bytes, as
`MessagesStream` is for Messages.
-/

namespace Zenith.Protocol

open Zenith.Framing Zenith.Tables Zenith.Text

structure GeminiStreamCall where
  id : String
  itemId : String
  name : String
  kind : ResponsesToolKind
  args : Json
  outputIndex : Nat
  thoughtSignature : Option String
  emittedArguments : String := ""

inductive GeminiStreamOutput
  | text
  | thinking
  | call (key : Nat)
deriving DecidableEq, Repr

structure GeminiStream where
  request : GeminiBridgeRequest
  output : List Frame := []
  text : String := ""
  thinking : String := ""
  calls : Table Nat GeminiStreamCall := ∅
  activeCall : Option Nat := none
  order : List GeminiStreamOutput := []
  usage : Option Json := none
  started : Bool := false
  textStarted : Bool := false
  textOutputIndex : Nat := 0
  nextOutputIndex : Nat := 0
  thinkingOutputIndex : Option Nat := none
  finishedUpstream : Bool := false
  finishReason : Option String := none
  completed : Option MessagesBridgeResponse := none
  terminal : Bool := false
  upstreamError : Option Json := none

namespace GeminiStream

def new (request : GeminiBridgeRequest) : GeminiStream := { request }

def frame (stream : GeminiStream) (frame : Frame) : GeminiStream :=
  { stream with output := stream.output ++ [frame] }

def fail (stream : GeminiStream) (error : AdapterError) : GeminiStream :=
  if stream.terminal then stream
  else
    { stream.frame (.failed stream.request.responseId stream.request.model error) with
      terminal := true }

def failInvalid (stream : GeminiStream) : GeminiStream :=
  stream.fail AdapterError.upstreamStreamInvalid

/-! ## The end of a stream -/

/-- The part of the assistant turn for one output, as the upstream would send it at once. -/
def orderPart (stream : GeminiStream) : GeminiStreamOutput → Option Json
  | .thinking =>
    if stream.thinking = "" then none
    else some (.ofFields [("thought", .bool true), ("text", .string stream.thinking)])
  | .text =>
    if stream.text = "" then none else some (.ofFields [("text", .string stream.text)])
  | .call key =>
    stream.calls[key]?.map fun call =>
      .ofFields [("functionCall", .ofFields <|
        [("name", .string call.name), ("args", call.args), ("id", .string call.id)] ++
        call.thoughtSignature.toList.map fun signature => ("thoughtSignature", .string signature))]

/-- The whole answer, as one response of the upstream. -/
def upstreamResponse (stream : GeminiStream) : Json :=
  .ofFields [("candidates", .array [.ofFields [
      ("content", .ofFields [("parts", .array (stream.order.filterMap stream.orderPart))]),
      ("finishReason", .ofOption stream.finishReason)]]),
    ("usageMetadata", stream.usage.getD .null)]

/-- The frames that close an item of the output. -/
def doneFrames (responseId : String) (outputIndex : Nat) (item : OutputItem) : List Frame :=
  (match item with
    | .toolCall call =>
      match call.kind with
      | .function => [.functionCallArgumentsDone (some responseId) call.id call.callId call.name none
          outputIndex call.payload]
      | .custom => [.customToolCallInputDone (some responseId) call.id outputIndex call.payload]
    | .message id _ texts =>
      [.outputTextDone (some responseId) id outputIndex 0 (texts.headD ""),
        .contentPartDone (some responseId) id outputIndex 0]
    | .reasoning _ _ _ => []) ++
  [.outputItemDone (some responseId) outputIndex item]

def complete (lib : Libraries) (stream : GeminiStream) : GeminiStream :=
  if stream.terminal then stream
  else if !stream.started ∨ (stream.text = "" ∧ stream.thinking = "" ∧ stream.calls.isEmpty) then
    stream.failInvalid
  else
    match translateGeminiResponse lib stream.request stream.upstreamResponse with
    | .error error => stream.fail error
    | .ok response =>
      { stream with
        output := stream.output ++
          (response.responseBody.output.zipIdx.flatMap fun item =>
            doneFrames stream.request.responseId item.2 item.1) ++
          [.completed response.responseBody]
        completed := some response
        terminal := true }

/-! ## Outputs -/

def ensureStarted (stream : GeminiStream) : GeminiStream :=
  if stream.started then stream
  else { stream with started := true }.frame
    (.created stream.request.responseId stream.request.model)

def textItemId (stream : GeminiStream) : String :=
  "msg_" ++ stream.request.responseId ++ "_" ++ toString stream.textOutputIndex

def ensureTextOutput (stream : GeminiStream) : GeminiStream :=
  if stream.textStarted then stream
  else
    let stream := { stream with
      textStarted := true
      textOutputIndex := stream.nextOutputIndex
      nextOutputIndex := stream.nextOutputIndex + 1 }
    (stream.frame (.outputItemAdded stream.textOutputIndex
      (.message stream.textItemId .inProgress []))).frame
      (.contentPartAdded stream.textItemId stream.textOutputIndex 0 true)

def handleThought (stream : GeminiStream) (value : String) : GeminiStream :=
  let stream := stream.ensureStarted
  let delta := incrementalDelta stream.thinking value
  if delta = "" then stream
  else
    let stream :=
      if stream.thinking = "" then
        { stream with
          order := stream.order ++ [GeminiStreamOutput.thinking]
          thinkingOutputIndex := some stream.nextOutputIndex
          nextOutputIndex := stream.nextOutputIndex + 1 }.frame
          (.outputItemAdded stream.nextOutputIndex
            (.reasoning ("reasoning_" ++ stream.request.responseId ++ "_0") .inProgress []))
      else stream
    { stream with thinking := stream.thinking ++ delta }.frame
      (.reasoningSummaryTextDelta stream.request.responseId stream.thinkingOutputIndex delta)

def handleText (stream : GeminiStream) (value : String) : GeminiStream :=
  let stream := stream.ensureStarted
  let delta := incrementalDelta stream.text value
  if delta = "" then stream
  else
    let stream :=
      if stream.text = "" then { stream with order := stream.order ++ [GeminiStreamOutput.text] }
      else stream
    let stream := stream.ensureTextOutput
    { stream with text := stream.text ++ delta }.frame
      (.outputTextDelta stream.request.responseId stream.textItemId stream.textOutputIndex 0 delta)

/-! ## Calls -/

/-- The key of the call that a part is about: the call with its identifier; the call of that name at
the same place; the call that is still going on; a new one. -/
def callKey (stream : GeminiStream) (partIndex : Nat) (name callId : Option String) : Option Nat :=
  (callId.bind fun callId =>
    (stream.calls.toList.find? fun entry => entry.2.id = callId).map Prod.fst).or <|
  (name.bind fun name =>
    (stream.calls.toList.find? fun entry => entry.2.name = name ∧ entry.1 = partIndex).map
      Prod.fst).or <|
  (stream.activeCall.filter fun active =>
    name.isNone || stream.calls[active]?.any fun call => some call.name = name).or <|
  name.map fun _ =>
    if stream.calls.contains partIndex then
      (stream.calls.toList.getLast?.map Prod.fst).getD partIndex + 1
    else partIndex

/-- The signature that a part carries. -/
def thoughtSignature (part : Json.Fields) : Option String :=
  (part.get "thoughtSignature").bind Json.asStr

/-- Sends what is new of the arguments of a call. -/
def emitCallArgumentsDelta (lib : Libraries) (stream : GeminiStream) (key : Nat) : GeminiStream :=
  match stream.calls[key]? with
  | none => stream
  | some call =>
    let arguments := lib.serde.toString call.args
    if call.emittedArguments = "" ∧ call.args.asObject.any List.isEmpty then stream
    else
      let delta := incrementalDelta call.emittedArguments arguments
      if delta = "" then stream
      else
        { stream with
          calls := stream.calls.insert key { call with emittedArguments := arguments } }.frame
          (.functionCallArgumentsDelta (some stream.request.responseId) call.itemId
            call.outputIndex delta)

/-- A call that is new. -/
def startCall (lib : Libraries) (stream : GeminiStream) (key : Nat) (name : String)
    (target : ClientToolTarget) (part call : Json.Fields) : GeminiStream :=
  match functionCallArgs lib call with
  | .error _ => stream.failInvalid
  | .ok args =>
    let stream := stream.ensureStarted
    let outputIndex := stream.nextOutputIndex
    let id := geminiCallId stream.request.responseId call key
    let item := toolCallItem target id .inProgress ""
    let stream := { stream with
      nextOutputIndex := stream.nextOutputIndex + 1
      calls := stream.calls.insert key
        { id, itemId := item.id, name, kind := target.kind, args, outputIndex
          thoughtSignature := thoughtSignature part }
      order := stream.order ++ [GeminiStreamOutput.call key] }
    let stream := stream.frame (.outputItemAdded outputIndex (.toolCall item))
    match target.kind with
    | .function => stream.emitCallArgumentsDelta lib key
    | .custom => stream

/-- The arguments of a call after another part of it. -/
def continuedArgs (lib : Libraries) (args : Json) (call : Json.Fields) : AdapterResult Json := do
  let args ← match call.get "args" with
    | none => pure args
    | some fullArgs =>
      if fullArgs.isObject then pure fullArgs else throw AdapterError.invalidRequest
  match call.get "partialArgs" with
  | none => return args
  | some partialArgs => applyPartialArgs lib args partialArgs

def continueCall (lib : Libraries) (stream : GeminiStream) (key : Nat) (state : GeminiStreamCall)
    (part call : Json.Fields) : GeminiStream :=
  match continuedArgs lib state.args call with
  | .error _ => stream.failInvalid
  | .ok args =>
    let stream := { stream with
      calls := stream.calls.insert key { state with
        args, thoughtSignature := (thoughtSignature part).or state.thoughtSignature } }
    match state.kind with
    | .function => stream.emitCallArgumentsDelta lib key
    | .custom => stream

/-- Remembers whether the call goes on. -/
def noteContinuation (stream : GeminiStream) (key : Nat) (call : Json.Fields) : GeminiStream :=
  if (call.get "willContinue").bind Json.asBool = some true then
    { stream with activeCall := some key }
  else if stream.activeCall = some key then { stream with activeCall := none }
  else stream

def handleFunctionCall (lib : Libraries) (stream : GeminiStream) (partIndex : Nat)
    (part call : Json.Fields) : GeminiStream :=
  let name := trimmedText (call.get "name")
  let callId := trimmedText (call.get "id")
  match stream.callKey partIndex name callId with
  | none => stream.failInvalid
  | some key =>
    match name.or (stream.calls[key]?.map GeminiStreamCall.name) with
    | none => stream.failInvalid
    | some name =>
      match stream.request.state.clientTool name with
      | none => stream.failInvalid
      | some target =>
        let stream :=
          match stream.calls[key]? with
          | none => stream.startCall lib key name target part call
          | some state => stream.continueCall lib key state part call
        if stream.terminal then stream else stream.noteContinuation key call

/-! ## Events -/

/-- A signature on its own belongs to the last call. -/
def noteSignature (stream : GeminiStream) (part : Json.Fields) : GeminiStream :=
  match stream.calls.toList.getLast? with
  | none => stream
  | some (key, call) =>
    { stream with
      calls := stream.calls.insert key { call with thoughtSignature := thoughtSignature part } }

def handlePart (lib : Libraries) (stream : GeminiStream) (partIndex : Nat) (value : Json) :
    GeminiStream :=
  match value.asObject with
  | none => stream.failInvalid
  | some part =>
    match (part.get "text").bind Json.asStr with
    | some text =>
      if (part.get "thought").bind Json.asBool = some true then stream.handleThought text
      else stream.handleText text
    | none =>
      match (part.get "functionCall").bind Json.asObject with
      | some call => stream.handleFunctionCall lib partIndex part call
      | none =>
        if (part.get "thoughtSignature").isSome then stream.noteSignature part
        else stream.failInvalid

/-- The parts of one chunk, up to one that fails. -/
def handleParts (lib : Libraries) (stream : GeminiStream) (partIndex : Nat) :
    List Json → GeminiStream
  | [] => stream
  | part :: parts =>
    let stream := stream.handlePart lib partIndex part
    if stream.terminal then stream else stream.handleParts lib (partIndex + 1) parts

def handleCandidate (lib : Libraries) (stream : GeminiStream) (candidate : Json) : GeminiStream :=
  match candidateParts candidate with
  | none =>
    if ((candidate.get "finishReason").bind Json.asStr).isSome then
      { stream with finishedUpstream := true }.complete lib
    else stream.failInvalid
  | some parts =>
    let stream := stream.handleParts lib 0 parts
    if stream.terminal then stream
    else
      match (candidate.get "finishReason").bind Json.asStr with
      | none => stream
      | some reason =>
        { stream with finishReason := some reason, finishedUpstream := true }.complete lib

/-- One parsed event. -/
def handleValue (lib : Libraries) (stream : GeminiStream) (value : Json) : GeminiStream :=
  if (value.get "error").isSome then { stream with upstreamError := some value }.failInvalid
  else
    let stream := { stream with usage := (value.get "usageMetadata").or stream.usage }
    match firstCandidate value with
    | none => stream
    | some candidate => stream.handleCandidate lib candidate

/-- The end of the upstream, announced or not. -/
def finish (lib : Libraries) (stream : GeminiStream) : GeminiStream :=
  if stream.finishedUpstream then stream.complete lib else stream.failInvalid

def handleEvent (lib : Libraries) (stream : GeminiStream) (event : List UInt8) : GeminiStream :=
  if sseDone event then stream.finish lib
  else
    match parseSseData lib.serde event with
    | none => if sseEventHasData event then stream.failInvalid else stream
    | some value => stream.handleValue lib value

end GeminiStream

/-! ## The bridge -/

abbrev GeminiStreamBridge := Framed UInt8 GeminiStream

namespace GeminiStreamBridge

def new (request : GeminiBridgeRequest) : GeminiStreamBridge :=
  { core := GeminiStream.new request }

def push (lib : Libraries) (bridge : GeminiStreamBridge) (bytes : List UInt8) :
    GeminiStreamBridge :=
  Framing.push eventEnd (GeminiStream.handleEvent lib) GeminiStream.terminal bridge bytes

def finish (lib : Libraries) (bridge : GeminiStreamBridge) : GeminiStreamBridge :=
  if bridge.core.terminal then bridge else { bridge with core := bridge.core.finish lib }

end GeminiStreamBridge

end Zenith.Protocol
