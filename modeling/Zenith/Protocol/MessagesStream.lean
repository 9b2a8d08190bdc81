import Mathlib
import Zenith.Lib.Framing
import Zenith.Protocol.Frames
import Zenith.Protocol.Messages
import Zenith.Protocol.Sse

/-!
# The stream bridge for Messages

`MessagesStreamBridge` of `protocol/adapter/stream.rs`: it turns the events of an Anthropic stream
into the frames of a Responses stream. `MessagesStream` is its state without the buffer of pending
bytes; the buffer and `push` are those of `Zenith.Framing`. The frames that were not popped yet are
kept as frames; `Frame.bytes` prints them. Counters of the source are 64-bit and saturate; the
blocks they count are all in memory, so they never get there.
-/

namespace Zenith.Protocol

open Zenith.Framing Zenith.Tables Zenith.Text

inductive StreamBlock
  | text (text : String) (contentIndex outputIndex : Option Nat)
  | tool (id itemId upstreamName : String) (target : ClientToolTarget) (arguments : String)
      (outputIndex : Nat)
  | thinking (thinking : String) (signature : Option String)
  | redactedThinking (data : String)

/-- The message that texts are added to. -/
structure TextOutput where
  itemId : String
  outputIndex : Nat
  nextContentIndex : Nat

structure MessagesStream where
  request : Option MessagesBridgeRequest
  model : String
  output : List Frame := []
  assistantBlocks : Table Nat StreamBlock := ∅
  closedBlocks : Finset Nat := ∅
  responseId : Option String := none
  upstreamId : Option String := none
  usage : Option Json := none
  textOutput : Option TextOutput := none
  nextOutputIndex : Nat := 0
  nextMessageIndex : Nat := 0
  completed : Option MessagesBridgeResponse := none
  upstreamError : Option Json := none
  terminal : Bool := false

namespace MessagesStream

def new (request : MessagesBridgeRequest) : MessagesStream :=
  { request := some request, model := request.state.model }

def frame (stream : MessagesStream) (frame : Frame) : MessagesStream :=
  { stream with output := stream.output ++ [frame] }

def fail (stream : MessagesStream) (error : AdapterError) : MessagesStream :=
  if stream.terminal then stream
  else
    { stream.frame (.failed (stream.responseId.getD "resp_bridge_stream_failed") stream.model error)
      with terminal := true }

/-- Every failure of a handler is this one. -/
def failInvalid (stream : MessagesStream) : MessagesStream :=
  stream.fail AdapterError.upstreamStreamInvalid

/-! ## Texts -/

/-- Opens a message, unless there is one to add to. -/
def ensureTextOutput (stream : MessagesStream) : MessagesStream × Option TextOutput :=
  match stream.textOutput with
  | some textOutput => (stream, some textOutput)
  | none =>
    match stream.responseId with
    | none => (stream, none)
    | some responseId =>
      let itemId := messageId ("msg_" ++ responseId) stream.nextMessageIndex
      let outputIndex := stream.nextOutputIndex
      let textOutput := { itemId, outputIndex, nextContentIndex := 0 }
      ({ stream.frame (.outputItemAdded outputIndex (.message itemId .inProgress [])) with
          nextMessageIndex := stream.nextMessageIndex + 1
          nextOutputIndex := stream.nextOutputIndex + 1
          textOutput := some textOutput }, some textOutput)

/-- Opens a part of a message: its item, output index and content index. -/
def beginTextContent (stream : MessagesStream) : MessagesStream × Option (String × Nat × Nat) :=
  match stream.ensureTextOutput with
  | (stream, none) => (stream, none)
  | (stream, some textOutput) =>
    let contentIndex := textOutput.nextContentIndex
    let stream := { stream with
      textOutput := some { textOutput with nextContentIndex := contentIndex + 1 } }
    let stream := stream.frame
      (.contentPartAdded textOutput.itemId textOutput.outputIndex contentIndex false)
    (stream, if stream.terminal then none
      else some (textOutput.itemId, textOutput.outputIndex, contentIndex))

def emitTextDelta (stream : MessagesStream) (itemId : String) (outputIndex contentIndex : Nat)
    (delta : String) : MessagesStream :=
  match stream.responseId with
  | none => stream.failInvalid
  | some responseId => stream.frame (.outputTextDelta responseId itemId outputIndex contentIndex delta)

/-- The text blocks that are parts of the message with this output index: their block index, content
index and text. -/
def textParts (blocks : Table Nat StreamBlock) (outputIndex : Nat) : List (Nat × Nat × String) :=
  blocks.toList.filterMap fun entry =>
    match entry.2 with
    | .text text (some contentIndex) (some blockOutputIndex) =>
      if blockOutputIndex = outputIndex then some (entry.1, contentIndex, text) else none
    | _ => none

/-- Closes the message that texts are added to, if there is one. -/
def finishActiveTextOutput (stream : MessagesStream) : MessagesStream × Bool :=
  match stream.textOutput with
  | none => (stream, true)
  | some textOutput =>
    let stream := { stream with textOutput := none }
    let parts := textParts stream.assistantBlocks textOutput.outputIndex
    if parts = [] ∨ parts.any fun part => decide (part.1 ∉ stream.closedBlocks) then
      (stream.failInvalid, false)
    else
      let parts := parts.insertionSort fun a b => a.2.1 ≤ b.2.1
      if parts.map (fun part => part.2.1) ≠ List.range parts.length then (stream.failInvalid, false)
      else
        let stream := stream.frame (.outputItemDone stream.responseId textOutput.outputIndex
          (.message textOutput.itemId .completed (parts.map fun part => part.2.2)))
        (stream, !stream.terminal)

/-! ## Events -/

def handleMessageStart (lib : Libraries) (stream : MessagesStream) (value : Json) :
    MessagesStream :=
  match value.get "message" with
  | none => stream.failInvalid
  | some message =>
    match trimmedText (message.get "id") with
    | none => stream.failInvalid
    | some upstreamId =>
      if stream.responseId.isSome then stream.failInvalid
      else
        let scope := stream.request.elim "" MessagesBridgeRequest.responseScope
        let responseId := bridgedResponseIdScoped lib scope upstreamId
        { stream with
          upstreamId := some upstreamId
          responseId := some responseId
          usage := (message.get "usage").or stream.usage }.frame (.created responseId stream.model)

/-- The index of the block an event is about. -/
def blockIndex (value : Json) : Option Nat := (value.get "index").bind Json.asU64

def startText (stream : MessagesStream) (index : Nat) (block : Json.Fields) : MessagesStream :=
  let initialText := ((block.get "text").bind Json.asStr).getD ""
  if initialText = "" then
    { stream with
      assistantBlocks := stream.assistantBlocks.insert index (.text initialText none none) }
  else
    match stream.beginTextContent with
    | (stream, none) => stream
    | (stream, some (itemId, outputIndex, contentIndex)) =>
      { stream with
        assistantBlocks := stream.assistantBlocks.insert index
          (.text initialText (some contentIndex) (some outputIndex)) }.emitTextDelta
        itemId outputIndex contentIndex initialText

/-- Is there a call with this identifier? -/
def hasTool (blocks : Table Nat StreamBlock) (id : String) : Bool :=
  (valuesOf blocks).any fun block =>
    match block with
    | .tool existingId _ _ _ _ _ => existingId = id
    | _ => false

/-- The arguments a tool block starts with. -/
def initialArguments (lib : Libraries) (block : Json.Fields) : String :=
  match block.get "input" with
  | some input => if input.asObject.any (!·.isEmpty) then lib.serde.toString input else ""
  | none => ""

def startTool (lib : Libraries) (stream : MessagesStream) (index : Nat) (block : Json.Fields) :
    MessagesStream :=
  match stream.finishActiveTextOutput with
  | (stream, false) => stream
  | (stream, true) =>
    match trimmedText (block.get "id") with
    | none => stream.failInvalid
    | some id =>
      match trimmedText (block.get "name") with
      | none => stream.failInvalid
      | some name =>
        match stream.request.bind fun request => request.state.clientTool name with
        | none => stream.failInvalid
        | some target =>
          if hasTool stream.assistantBlocks id then stream.failInvalid
          else if (block.get "input").any (!·.isObject) then stream.failInvalid
          else
            let arguments := initialArguments lib block
            let outputIndex := stream.nextOutputIndex
            let item := toolCallItem target id .inProgress ""
            let stream := { stream with nextOutputIndex := stream.nextOutputIndex + 1 }
            let stream := stream.frame (.outputItemAdded outputIndex (.toolCall item))
            let stream := { stream with
              assistantBlocks := stream.assistantBlocks.insert index
                (.tool id item.id name target arguments outputIndex) }
            if target.kind = .function ∧ arguments ≠ "" then
              stream.frame
                (.functionCallArgumentsDelta stream.responseId id outputIndex arguments)
            else stream

def startThinking (stream : MessagesStream) (index : Nat) (block : Json.Fields) : MessagesStream :=
  { stream with
    assistantBlocks := stream.assistantBlocks.insert index
      (.thinking (((block.get "thinking").bind Json.asStr).getD "")
        (((block.get "signature").bind Json.asStr).filter fun signature => signature ≠ "")) }

def startRedactedThinking (stream : MessagesStream) (index : Nat) (block : Json.Fields) :
    MessagesStream :=
  match (block.get "data").bind Json.asStr with
  | none => stream.failInvalid
  | some data =>
    { stream with assistantBlocks := stream.assistantBlocks.insert index (.redactedThinking data) }

def handleBlockStart (lib : Libraries) (stream : MessagesStream) (value : Json) : MessagesStream :=
  match blockIndex value with
  | none => stream.failInvalid
  | some index =>
    match (value.get "content_block").bind Json.asObject with
    | none => stream.failInvalid
    | some block =>
      if stream.responseId.isNone ∨ stream.assistantBlocks.contains index ∨
          index ∈ stream.closedBlocks then
        stream.failInvalid
      else
        match (block.get "type").bind Json.asStr with
        | some "text" => stream.startText index block
        | some "tool_use" => stream.startTool lib index block
        | some "thinking" => stream.startThinking index block
        | some "redacted_thinking" => stream.startRedactedThinking index block
        | _ => stream.failInvalid

/-- A text of a block that is part of a message already. -/
def appendText (stream : MessagesStream) (index : Nat) (delta : String) : MessagesStream :=
  match stream.assistantBlocks[index]? with
  | some (.text text (some contentIndex) (some outputIndex)) =>
    let stream := { stream with
      assistantBlocks := stream.assistantBlocks.insert index
        (.text (text ++ delta) (some contentIndex) (some outputIndex)) }
    match stream.textOutput.filter fun output => output.outputIndex = outputIndex with
    | none => stream.failInvalid
    | some textOutput => stream.emitTextDelta textOutput.itemId outputIndex contentIndex delta
  | _ => stream.failInvalid

def textDelta (stream : MessagesStream) (index : Nat) (delta : Json.Fields) : MessagesStream :=
  match (delta.get "text").bind Json.asStr with
  | none => stream.failInvalid
  | some delta =>
    if delta = "" then stream
    else
      match stream.assistantBlocks[index]? with
      | some (.text text none _) =>
        match stream.beginTextContent with
        | (stream, none) => stream
        | (stream, some (_, outputIndex, contentIndex)) =>
          { stream with
            assistantBlocks := stream.assistantBlocks.insert index
              (.text text (some contentIndex) (some outputIndex)) }.appendText index delta
      | some (.text _ (some _) _) => stream.appendText index delta
      | _ => stream.failInvalid

/-- A delta of another kind, for the block it must belong to. -/
def blockDelta (stream : MessagesStream) (index : Nat) (delta : Json.Fields) : MessagesStream :=
  let text := fun key => (delta.get key).bind Json.asStr
  match stream.assistantBlocks[index]?, text "type" with
  | some (.tool id itemId upstreamName target arguments outputIndex), some "input_json_delta" =>
    match text "partial_json" with
    | none => stream.failInvalid
    | some delta =>
      let stream := { stream with
        assistantBlocks := stream.assistantBlocks.insert index
          (.tool id itemId upstreamName target (arguments ++ delta) outputIndex) }
      match target.kind with
      | .function =>
        stream.frame (.functionCallArgumentsDelta stream.responseId id outputIndex delta)
      | .custom => stream
  | some (.thinking thinking signature), some "thinking_delta" =>
    match text "thinking" with
    | none => stream.failInvalid
    | some delta =>
      { stream with
        assistantBlocks := stream.assistantBlocks.insert index
          (.thinking (thinking ++ delta) signature) }
  | some (.thinking thinking signature), some "signature_delta" =>
    match text "signature" with
    | none => stream.failInvalid
    | some delta =>
      { stream with
        assistantBlocks := stream.assistantBlocks.insert index
          (.thinking thinking (some (signature.getD "" ++ delta))) }
  | _, _ => stream.failInvalid

def handleBlockDelta (stream : MessagesStream) (value : Json) : MessagesStream :=
  match blockIndex value with
  | none => stream.failInvalid
  | some index =>
    match (value.get "delta").bind Json.asObject with
    | none => stream.failInvalid
    | some delta =>
      if index ∈ stream.closedBlocks then stream.failInvalid
      else if (delta.get "type").bind Json.asStr = some "text_delta" then
        stream.textDelta index delta
      else stream.blockDelta index delta

/-- `tool_arguments_value`: arguments that are not there are an empty object. -/
def toolArgumentsValue (lib : Libraries) (arguments : String) : Option Json :=
  if trim arguments = "" then some (.ofFields [])
  else (lib.serde.fromStr arguments).filter Json.isObject

def stopText (stream : MessagesStream) (text : String) (contentIndex outputIndex : Option Nat) :
    MessagesStream :=
  match contentIndex, outputIndex with
  | some contentIndex, some outputIndex =>
    match stream.textOutput.filter fun output => output.outputIndex = outputIndex with
    | none => stream.failInvalid
    | some textOutput =>
      (stream.frame (.outputTextDone stream.responseId textOutput.itemId outputIndex contentIndex
        text)).frame (.contentPartDone stream.responseId textOutput.itemId outputIndex contentIndex)
  -- An empty text block has no part of a message.
  | _, _ => stream

def stopTool (lib : Libraries) (stream : MessagesStream) (id itemId : String)
    (target : ClientToolTarget) (rawArguments : String) (outputIndex : Nat) : MessagesStream :=
  let arguments := if trim rawArguments = "" then "{}" else rawArguments
  match toolArgumentsValue lib arguments with
  | none => stream.failInvalid
  | some input =>
    match target.kind with
    | .function =>
      (stream.frame (.functionCallArgumentsDone stream.responseId id id target.name target.nameSpace
        outputIndex arguments)).frame (.outputItemDone stream.responseId outputIndex
          (.toolCall (toolCallItem target id .completed arguments)))
    | .custom =>
      match customToolInput input with
      | .error _ => stream.failInvalid
      | .ok rawInput =>
        (stream.frame (.customToolCallInputDone stream.responseId itemId outputIndex
          rawInput)).frame (.outputItemDone stream.responseId outputIndex
            (.toolCall (toolCallItem target id .completed rawInput)))

def handleBlockStop (lib : Libraries) (stream : MessagesStream) (value : Json) : MessagesStream :=
  match blockIndex value with
  | none => stream.failInvalid
  | some index =>
    if index ∈ stream.closedBlocks then stream.failInvalid
    else
      let stream : MessagesStream :=
        { stream with closedBlocks := insert index stream.closedBlocks }
      match stream.assistantBlocks[index]? with
      | none => stream.failInvalid
      | some (.text text contentIndex outputIndex) => stream.stopText text contentIndex outputIndex
      | some (.tool id itemId _ target arguments outputIndex) =>
        stream.stopTool lib id itemId target arguments outputIndex
      | some (.thinking _ _) => stream
      | some (.redactedThinking _) => stream

/-! ## The end of a stream -/

/-- The block as the upstream sent it. -/
def blockContent (lib : Libraries) : StreamBlock → Option Json
  | .text text _ _ => some (.ofFields [("type", .string "text"), ("text", .string text)])
  | .tool id _ upstreamName _ arguments _ =>
    (toolArgumentsValue lib arguments).map fun input =>
      .ofFields [("type", .string "tool_use"), ("id", .string id), ("name", .string upstreamName),
        ("input", input)]
  | .thinking thinking signature =>
    some (.ofFields ([("type", .string "thinking"), ("thinking", .string thinking)] ++
      signature.toList.map fun signature => ("signature", .string signature)))
  | .redactedThinking data =>
    some (.ofFields [("type", .string "redacted_thinking"), ("data", .string data)])

/-- What a complete stream was: its response, or the error it fails with. -/
def completedResponse (lib : Libraries) (stream : MessagesStream) (request : MessagesBridgeRequest) :
    AdapterResult MessagesBridgeResponse := do
  let upstreamId ← okOr stream.upstreamId AdapterError.upstreamStreamInvalid
  let content ← okOr ((valuesOf stream.assistantBlocks).mapM (blockContent lib))
    AdapterError.upstreamStreamInvalid
  match validateMessagesToolCalls request.state content with
  | .error _ => throw AdapterError.upstreamStreamInvalid
  | .ok () =>
    let (output, _) ← responsesOutputFromMessagesContent lib content request.state
    let responseId ← okOr stream.responseId AdapterError.upstreamStreamInvalid
    if responseId ≠ bridgedResponseIdScoped lib request.responseScope upstreamId then
      throw AdapterError.upstreamStreamInvalid
    else
      return {
        responseBody := {
          id := responseId
          model := stream.model
          output := setMessageOutputId output responseId
          usage := responsesUsage stream.usage }
        responseId
        continuation := request.state.appendAssistantContent content }

def complete (lib : Libraries) (stream : MessagesStream) : MessagesStream :=
  if stream.responseId.isNone ∨ stream.assistantBlocks.isEmpty ∨
      stream.closedBlocks.card ≠ stream.assistantBlocks.size then
    stream.failInvalid
  else
    match stream.finishActiveTextOutput with
    | (stream, false) => stream
    | (stream, true) =>
      match stream.request with
      | none => stream.failInvalid
      | some request =>
        let stream := { stream with request := none }
        match stream.completedResponse lib request with
        | .error error => stream.fail error
        | .ok response =>
          { { stream with completed := some response }.frame (.completed response.responseBody) with
            terminal := true }

def isIgnoredDelta (value : Json) : Bool :=
  match ((value.get "delta").bind fun delta => delta.get "type").bind Json.asStr with
  | some "citations_delta" => true
  | some "document" => true
  | some "compaction_delta" => true
  | _ => false

/-- One parsed event. -/
def handleValue (lib : Libraries) (stream : MessagesStream) (value : Json) : MessagesStream :=
  match (value.get "type").bind Json.asStr with
  | none => stream.failInvalid
  | some "message_start" => stream.handleMessageStart lib value
  | some "content_block_start" => stream.handleBlockStart lib value
  | some "content_block_delta" =>
    if isIgnoredDelta value then stream else stream.handleBlockDelta value
  | some "content_block_stop" => stream.handleBlockStop lib value
  | some "message_delta" => { stream with usage := (value.get "usage").or stream.usage }
  | some "message_stop" => stream.complete lib
  | some "ping" => stream
  | some "error" => { stream with upstreamError := some value }.failInvalid
  | some kind => if isIgnorableMetadataEvent kind then stream else stream.failInvalid

def handleEvent (lib : Libraries) (stream : MessagesStream) (event : List UInt8) : MessagesStream :=
  match parseSseData lib.serde event with
  | none => if sseEventHasData event then stream.failInvalid else stream
  | some value => stream.handleValue lib value

end MessagesStream

/-! ## The bridge -/

abbrev MessagesStreamBridge := Framed UInt8 MessagesStream

namespace MessagesStreamBridge

def new (request : MessagesBridgeRequest) : MessagesStreamBridge :=
  { core := MessagesStream.new request }

def push (lib : Libraries) (bridge : MessagesStreamBridge) (bytes : List UInt8) :
    MessagesStreamBridge :=
  Framing.push eventEnd (MessagesStream.handleEvent lib) MessagesStream.terminal bridge bytes

def finish (bridge : MessagesStreamBridge) : MessagesStreamBridge :=
  if bridge.core.terminal then bridge else { bridge with core := bridge.core.failInvalid }

end MessagesStreamBridge

end Zenith.Protocol
