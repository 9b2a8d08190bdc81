import Mathlib
import Zenith.Protocol.Frames
import Zenith.Protocol.MessagesStream

/-!
# What one event does to the Messages bridge

`Move` lists everything that an event can do to a stream that is still running; `move_handleValue`
says that the list is complete. The invariants of the bridge are proved by going through the list,
and the handlers are not looked at again.
-/

namespace Zenith.Protocol.MessagesStream

open Zenith.Tables Zenith.Text

/-! ## What an event brings -/

def eventKind (value : Json) : Option String := (value.get "type").bind Json.asStr

/-- The block that an event starts. -/
def startedBlock (value : Json) : Option (Nat × Json.Fields) := do
  if eventKind value = some "content_block_start" then
    let index ← blockIndex value
    let block ← (value.get "content_block").bind Json.asObject
    return (index, block)
  else none

/-- The delta that an event brings. -/
def blockDeltaOf (value : Json) : Option (Nat × Json.Fields) := do
  if eventKind value = some "content_block_delta" then
    let index ← blockIndex value
    let delta ← (value.get "delta").bind Json.asObject
    return (index, delta)
  else none

/-- The text that an event brings, and the block it belongs to. -/
def textAt (value : Json) : Option (Nat × String) :=
  ((startedBlock value).bind fun (index, block) =>
    if (block.get "type").bind Json.asStr = some "text" then
      some (index, ((block.get "text").bind Json.asStr).getD "")
    else none).or <|
  (blockDeltaOf value).bind fun (index, delta) =>
    if (delta.get "type").bind Json.asStr = some "text_delta" then
      ((delta.get "text").bind Json.asStr).map fun text => (index, text)
    else none

/-- The tool call that an event starts: its block and its identifier. -/
def toolAt (value : Json) : Option (Nat × String) :=
  (startedBlock value).bind fun (index, block) =>
    if (block.get "type").bind Json.asStr = some "tool_use" then
      (trimmedText (block.get "id")).map fun id => (index, id)
    else none

/-- An event that shows nothing new to the client. -/
def Silent (value : Json) : Prop :=
  toolAt value = none ∧ ∀ index text, textAt value = some (index, text) → text = ""

variable {value : Json}

theorem silent_of_kind {kind : String} (hkind : eventKind value = some kind)
    (hstart : kind ≠ "content_block_start") (hdelta : kind ≠ "content_block_delta") :
    Silent value := by
  have hnone : startedBlock value = none ∧ blockDeltaOf value = none := by
    constructor
    · rw [startedBlock, hkind, if_neg (by simpa using hstart)]
    · rw [blockDeltaOf, hkind, if_neg (by simpa using hdelta)]
  constructor
  · rw [toolAt, hnone.1]
    rfl
  · intro index text htext
    rw [textAt, hnone.1, hnone.2] at htext
    exact nomatch htext

theorem silent_of_isIgnoredDelta (hkind : eventKind value = some "content_block_delta")
    (hignored : isIgnoredDelta value = true) : Silent value := by
  have hstart : startedBlock value = none := by simp [startedBlock, hkind]
  refine ⟨by simp [toolAt, hstart], fun index text htext => ?_⟩
  simp only [textAt, hstart, Option.bind_none, Option.none_or, Option.bind_eq_some_iff,
    Prod.exists] at htext
  obtain ⟨i, delta, hdelta, htext⟩ := htext
  split at htext
  next htype =>
    have hread : ((value.get "delta").bind fun delta => delta.get "type").bind Json.asStr =
        some "text_delta" := by
      simp only [blockDeltaOf, hkind, if_true, Option.bind_eq_bind, Option.bind_eq_some_iff,
        Option.pure_def, Option.some.injEq, Prod.mk.injEq] at hdelta
      obtain ⟨-, -, fields, ⟨object, hobject, hfields⟩, -, rfl⟩ := hdelta
      rw [hobject, Option.bind_some, Json.get_of_asObject hfields]
      exact Option.bind_eq_some_iff.mpr htype
    simp [isIgnoredDelta, hread] at hignored
  next => exact nomatch htext

/-- The usage after an event: that of the start or of the last delta of the message. -/
def usageStep (usage : Option Json) (value : Json) : Option Json :=
  match eventKind value with
  | some "message_start" =>
    ((value.get "message").bind fun message => message.get "usage").or usage
  | some "message_delta" => (value.get "usage").or usage
  | _ => usage

/-- An event about a block. -/
def BlockEvent (value : Json) : Prop :=
  eventKind value = some "content_block_start" ∨ eventKind value = some "content_block_delta" ∨
    eventKind value = some "content_block_stop"

theorem usageStep_of_kind {usage : Option Json}
    (hstart : eventKind value ≠ some "message_start")
    (hdelta : eventKind value ≠ some "message_delta") : usageStep usage value = usage := by
  unfold usageStep
  split
  next h => exact absurd h hstart
  next h => exact absurd h hdelta
  next => rfl

theorem usageStep_of_block {usage : Option Json} (h : BlockEvent value) :
    usageStep usage value = usage := by
  refine usageStep_of_kind ?_ ?_ <;> rcases h with h | h | h <;> simp [h]

theorem blockEvent_of_textAt {index : Nat} {text : String}
    (h : textAt value = some (index, text)) : BlockEvent value := by
  by_cases hstart : eventKind value = some "content_block_start"
  · exact .inl hstart
  · by_cases hdelta : eventKind value = some "content_block_delta"
    · exact .inr (.inl hdelta)
    · simp [textAt, startedBlock, blockDeltaOf, hstart, hdelta] at h

theorem blockEvent_of_toolAt {index : Nat} {id : String}
    (h : toolAt value = some (index, id)) : BlockEvent value := by
  by_cases hstart : eventKind value = some "content_block_start"
  · exact .inl hstart
  · simp [toolAt, startedBlock, hstart] at h

/-! ## The moves -/

/-- A block of which the client sees nothing. -/
inductive Hidden : StreamBlock → Prop
  | text : Hidden (.text "" none none)
  | thinking (thinking : String) (signature : Option String) : Hidden (.thinking thinking signature)
  | redactedThinking (data : String) : Hidden (.redactedThinking data)

/-- The frames that arguments of a call send. -/
def argumentsDelta (responseId : Option String) (target : ClientToolTarget) (id : String)
    (outputIndex : Nat) (delta : String) : List Frame :=
  match target.kind with
  | .function => [.functionCallArgumentsDelta responseId id outputIndex delta]
  | .custom => []

/-- More of a block, other than text, with the frames it sends. -/
inductive Grows (responseId : Option String) : StreamBlock → StreamBlock → List Frame → Prop
  | tool (id itemId upstreamName : String) (target : ClientToolTarget) (arguments delta : String)
      (outputIndex : Nat) :
    Grows responseId (.tool id itemId upstreamName target arguments outputIndex)
      (.tool id itemId upstreamName target (arguments ++ delta) outputIndex)
      (argumentsDelta responseId target id outputIndex delta)
  | thinking (thinking thinking' : String) (signature signature' : Option String) :
    Grows responseId (.thinking thinking signature) (.thinking thinking' signature') []

/-- The arguments of a call as they are sent when it is complete. -/
def finalArguments (arguments : String) : String := if trim arguments = "" then "{}" else arguments

/-- What the client gets of a complete call. -/
inductive FinalPayload (lib : Libraries) (arguments : String) : ResponsesToolKind → String → Prop
  | function (input : Json) (h : toolArgumentsValue lib (finalArguments arguments) = some input) :
    FinalPayload lib arguments .function (finalArguments arguments)
  | custom (input : Json) (payload : String)
      (h : toolArgumentsValue lib (finalArguments arguments) = some input)
      (hinput : customToolInput input = .ok payload) :
    FinalPayload lib arguments .custom payload

/-- The frame with the whole arguments or input of a call. -/
def payloadDone (responseId : Option String) (target : ClientToolTarget) (id itemId : String)
    (outputIndex : Nat) (payload : String) : Frame :=
  match target.kind with
  | .function => .functionCallArgumentsDone responseId id id target.name target.nameSpace outputIndex
      payload
  | .custom => .customToolCallInputDone responseId itemId outputIndex payload

/-- The frames that the end of a block sends. -/
inductive Closes (lib : Libraries) (s : MessagesStream) : StreamBlock → List Frame → Prop
  | hiddenText (text : String) (contentIndex outputIndex : Option Nat)
      (h : contentIndex = none ∨ outputIndex = none) :
    Closes lib s (.text text contentIndex outputIndex) []
  | text (text : String) (contentIndex : Nat) (textOutput : TextOutput)
      (h : s.textOutput = some textOutput) :
    Closes lib s (.text text (some contentIndex) (some textOutput.outputIndex))
      [.outputTextDone s.responseId textOutput.itemId textOutput.outputIndex contentIndex text,
        .contentPartDone s.responseId textOutput.itemId textOutput.outputIndex contentIndex]
  | tool (id itemId upstreamName : String) (target : ClientToolTarget) (arguments : String)
      (outputIndex : Nat) (payload : String) (hpayload : FinalPayload lib arguments target.kind payload) :
    Closes lib s (.tool id itemId upstreamName target arguments outputIndex)
      [payloadDone s.responseId target id itemId outputIndex payload,
        .outputItemDone s.responseId outputIndex
          (.toolCall (toolCallItem target id .completed payload))]
  | thinking (thinking : String) (signature : Option String) :
    Closes lib s (.thinking thinking signature) []
  | redactedThinking (data : String) : Closes lib s (.redactedThinking data) []

/-- The message that texts go to: the one there is, or a new one. -/
def nextText (s : MessagesStream) (responseId : String) : TextOutput :=
  s.textOutput.getD
    { itemId := messageId ("msg_" ++ responseId) s.nextMessageIndex
      outputIndex := s.nextOutputIndex
      nextContentIndex := 0 }

/-- A stream with a part more in its message, which is opened if there is none. -/
def withPart (s : MessagesStream) (responseId : String) : MessagesStream :=
  let textOutput := s.nextText responseId
  { s with
    output := s.output ++
      (if s.textOutput.isSome then []
        else [.outputItemAdded textOutput.outputIndex (.message textOutput.itemId .inProgress [])]) ++
      [.contentPartAdded textOutput.itemId textOutput.outputIndex textOutput.nextContentIndex false]
    nextMessageIndex := s.nextMessageIndex + if s.textOutput.isSome then 0 else 1
    nextOutputIndex := s.nextOutputIndex + if s.textOutput.isSome then 0 else 1
    textOutput := some { textOutput with nextContentIndex := textOutput.nextContentIndex + 1 } }

/-- The parts of a message in the order of their content indices. -/
def orderedParts (blocks : Table Nat StreamBlock) (outputIndex : Nat) : List (Nat × Nat × String) :=
  (textParts blocks outputIndex).insertionSort fun a b => a.2.1 ≤ b.2.1

/-- The message that texts are added to has its parts, and all of them are closed. -/
def Closable (s : MessagesStream) : Prop :=
  ∀ textOutput, s.textOutput = some textOutput →
    textParts s.assistantBlocks textOutput.outputIndex ≠ [] ∧
    (∀ part ∈ textParts s.assistantBlocks textOutput.outputIndex, part.1 ∈ s.closedBlocks) ∧
    (orderedParts s.assistantBlocks textOutput.outputIndex).map (fun part => part.2.1) =
      List.range (orderedParts s.assistantBlocks textOutput.outputIndex).length

/-- The frames that the end of the message sends. -/
def closingFrames (s : MessagesStream) : List Frame :=
  match s.textOutput with
  | none => []
  | some textOutput => [.outputItemDone s.responseId textOutput.outputIndex
      (.message textOutput.itemId .completed
        ((orderedParts s.assistantBlocks textOutput.outputIndex).map fun part => part.2.2))]

def closeText (s : MessagesStream) : MessagesStream :=
  { s with textOutput := none, output := s.output ++ s.closingFrames }

/-- What an event does to a running stream. -/
inductive Move (lib : Libraries) (s : MessagesStream) (value : Json) : MessagesStream → Prop
  | idle (hsilent : Silent value) : Move lib s value { s with usage := usageStep s.usage value }
  | start (upstreamId responseId : String) (hsilent : Silent value) (hfresh : s.responseId = none) :
    Move lib s value ({ s with
      upstreamId := some upstreamId
      responseId := some responseId
      usage := usageStep s.usage value }.frame (.created responseId s.model))
  | hide (index : Nat) (block : StreamBlock) (hsilent : Silent value) (hkind : BlockEvent value)
      (hstarted : s.responseId.isSome) (hfresh : s.assistantBlocks[index]? = none)
      (hhidden : Hidden block) :
    Move lib s value { s with assistantBlocks := s.assistantBlocks.insert index block }
  | showText (index : Nat) (text delta responseId : String)
      (htext : textAt value = some (index, delta)) (hdelta : delta ≠ "")
      (htool : toolAt value = none) (hstarted : s.responseId = some responseId)
      (hblock : (s.assistantBlocks[index]? = none ∧ text = "") ∨
        ∃ o, s.assistantBlocks[index]? = some (.text text none o))
      (hopen : index ∉ s.closedBlocks) :
    Move lib s value ({ s.withPart responseId with
      assistantBlocks := s.assistantBlocks.insert index
        (.text (text ++ delta) (some (s.nextText responseId).nextContentIndex)
          (some (s.nextText responseId).outputIndex)) }.frame
        (.outputTextDelta responseId (s.nextText responseId).itemId
          (s.nextText responseId).outputIndex (s.nextText responseId).nextContentIndex delta))
  | growText (index : Nat) (text delta responseId : String) (contentIndex : Nat)
      (textOutput : TextOutput) (htext : textAt value = some (index, delta)) (hdelta : delta ≠ "")
      (htool : toolAt value = none) (hactive : s.textOutput = some textOutput)
      (hblock : s.assistantBlocks[index]? =
        some (.text text (some contentIndex) (some textOutput.outputIndex)))
      (hopen : index ∉ s.closedBlocks) :
    Move lib s value ({ s with
      assistantBlocks := s.assistantBlocks.insert index
        (.text (text ++ delta) (some contentIndex) (some textOutput.outputIndex)) }.frame
          (.outputTextDelta responseId textOutput.itemId textOutput.outputIndex contentIndex delta))
  | showTool (index : Nat) (id name : String) (target : ClientToolTarget) (arguments : String)
      (htool : toolAt value = some (index, id)) (htext : textAt value = none)
      (hstarted : s.responseId.isSome) (hfresh : s.assistantBlocks[index]? = none)
      (hclosable : s.Closable) (hid : hasTool s.assistantBlocks id = false) :
    Move lib s value { s.closeText with
      nextOutputIndex := s.nextOutputIndex + 1
      assistantBlocks := s.assistantBlocks.insert index
        (.tool id (toolCallItem target id .inProgress "").id name target arguments
          s.nextOutputIndex)
      output := s.output ++ s.closingFrames ++
        .outputItemAdded s.nextOutputIndex (.toolCall (toolCallItem target id .inProgress "")) ::
          if arguments = "" then []
          else argumentsDelta s.responseId target id s.nextOutputIndex arguments }
  | grow (index : Nat) (old new : StreamBlock) (frames : List Frame) (hsilent : Silent value)
      (hkind : BlockEvent value) (hblock : s.assistantBlocks[index]? = some old) (hopen : index ∉ s.closedBlocks)
      (hgrows : Grows s.responseId old new frames) :
    Move lib s value { s with
      assistantBlocks := s.assistantBlocks.insert index new, output := s.output ++ frames }
  | close (index : Nat) (block : StreamBlock) (frames : List Frame) (hsilent : Silent value)
      (hkind : BlockEvent value) (hblock : s.assistantBlocks[index]? = some block) (hopen : index ∉ s.closedBlocks)
      (hcloses : Closes lib s block frames) :
    Move lib s value { s with
      closedBlocks := insert index s.closedBlocks, output := s.output ++ frames }
  | fail (s' : MessagesStream) (frames : List Frame) (responseId model : String)
      (error : AdapterError) (hterminal : s'.terminal = true) (hcompleted : s'.completed = s.completed)
      (houtput : s'.output = s.output ++ frames ++ [.failed responseId model error])
      (hframes : frames = [] ∨ s.Closable ∧ frames = s.closingFrames) :
    Move lib s value s'
  | complete (s' : MessagesStream) (request : MessagesBridgeRequest)
      (response : MessagesBridgeResponse) (hkind : eventKind value = some "message_stop")
      (hstarted : s.responseId.isSome) (hcard : s.closedBlocks.card = s.assistantBlocks.size)
      (hclosable : s.Closable) (hrequest : s.request = some request)
      (hresponse : { s.closeText with request := none }.completedResponse lib request = .ok response)
      (hterminal : s'.terminal = true) (hcompleted : s'.completed = some response)
      (houtput : s'.output = s.output ++ s.closingFrames ++ [.completed response.responseBody]) :
    Move lib s value s'

/-! ## The handlers make moves -/

section
variable {lib : Libraries} {s : MessagesStream} {value : Json}

theorem fail_running (hs : s.terminal = false) (error : AdapterError) :
    s.fail error = { s.frame (.failed (s.responseId.getD "resp_bridge_stream_failed") s.model error)
      with terminal := true } := by
  rw [fail, hs]
  rfl

/-- A failure, maybe after the message was closed. -/
theorem Move.failed {s₁ : MessagesStream} {frames : List Frame} (hs : s₁.terminal = false)
    (error : AdapterError) (hcompleted : s₁.completed = s.completed)
    (houtput : s₁.output = s.output ++ frames)
    (hframes : frames = [] ∨ s.Closable ∧ frames = s.closingFrames) :
    Move lib s value (s₁.fail error) := by
  rw [fail_running hs]
  refine Move.fail _ frames (s₁.responseId.getD "resp_bridge_stream_failed") s₁.model error rfl
    hcompleted ?_ hframes
  show s₁.output ++ _ = _
  rw [houtput]

theorem Move.failedInvalid {s₁ : MessagesStream} (hs : s₁.terminal = false)
    (hcompleted : s₁.completed = s.completed) (houtput : s₁.output = s.output) :
    Move lib s value s₁.failInvalid :=
  Move.failed hs _ hcompleted (houtput.trans (List.append_nil _).symm) (.inl rfl)

theorem Move.failInvalid (hs : s.terminal = false) : Move lib s value s.failInvalid :=
  Move.failedInvalid hs rfl rfl

theorem beginTextContent_eq {responseId : String} (hs : s.terminal = false)
    (hstarted : s.responseId = some responseId) :
    s.beginTextContent = (s.withPart responseId, some ((s.nextText responseId).itemId,
      (s.nextText responseId).outputIndex, (s.nextText responseId).nextContentIndex)) := by
  cases htext : s.textOutput with
  | none => simp [beginTextContent, ensureTextOutput, htext, hstarted, withPart, nextText, frame, hs]
  | some textOutput =>
    simp [beginTextContent, ensureTextOutput, htext, withPart, nextText, frame, hs]

/-- The message is closed, or the stream fails. -/
theorem finishActiveTextOutput_cases (hs : s.terminal = false) :
    (s.Closable ∧ s.finishActiveTextOutput = (s.closeText, true)) ∨
    (¬ s.Closable ∧ s.finishActiveTextOutput = ({ s with textOutput := none }.failInvalid, false)) := by
  cases htext : s.textOutput with
  | none =>
    refine .inl ⟨?_, ?_⟩
    · intro textOutput h
      rw [htext] at h
      exact nomatch h
    · have hframes : s.closingFrames = [] := by rw [closingFrames, htext]
      have hself : s.closeText = s := by rw [closeText, hframes, List.append_nil, ← htext]
      simp only [finishActiveTextOutput, htext, hself]
  | some textOutput =>
    have hiff : s.Closable ↔
        ¬ (textParts s.assistantBlocks textOutput.outputIndex = [] ∨
          (textParts s.assistantBlocks textOutput.outputIndex).any fun part =>
            decide (part.1 ∉ s.closedBlocks)) ∧
        (orderedParts s.assistantBlocks textOutput.outputIndex).map (fun part => part.2.1) =
          List.range (orderedParts s.assistantBlocks textOutput.outputIndex).length := by
      simp [Closable, htext, and_assoc]
    simp only [finishActiveTextOutput, htext]
    split
    next h => exact .inr ⟨fun hclosable => (hiff.mp hclosable).1 h, rfl⟩
    next h =>
      split
      next hne => exact .inr ⟨fun hclosable => hne (hiff.mp hclosable).2, rfl⟩
      next heq =>
        refine .inl ⟨hiff.mpr ⟨h, not_not.mp heq⟩, ?_⟩
        simp [closeText, closingFrames, htext, frame, hs, orderedParts]

/-- An event that changes nothing. -/
theorem Move.same (hsilent : Silent value) (husage : usageStep s.usage value = s.usage) :
    Move lib s value s := by
  have hmove : Move lib s value _ := Move.idle hsilent
  rwa [husage] at hmove

theorem move_handleMessageStart (hs : s.terminal = false)
    (hkind : eventKind value = some "message_start") :
    Move lib s value (s.handleMessageStart lib value) := by
  have hsilent := silent_of_kind hkind (by decide) (by decide)
  unfold handleMessageStart
  split
  next => exact Move.failInvalid hs
  next message hmessage =>
    split
    next => exact Move.failInvalid hs
    next upstreamId _ =>
      split
      next => exact Move.failInvalid hs
      next hfresh =>
        have hmove : Move lib s value _ := Move.start upstreamId
          (bridgedResponseIdScoped lib (s.request.elim "" MessagesBridgeRequest.responseScope)
            upstreamId) hsilent (Option.not_isSome_iff_eq_none.mp hfresh)
        rw [usageStep, hkind, hmessage] at hmove
        exact hmove

variable {index : Nat}

theorem move_startText {block : Json.Fields} {responseId : String}
    (hs : s.terminal = false) (hstarted : s.responseId = some responseId)
    (hfresh : s.assistantBlocks[index]? = none) (hopen : index ∉ s.closedBlocks)
    (htool : toolAt value = none)
    (htext : textAt value = some (index, ((block.get "text").bind Json.asStr).getD "")) :
    Move lib s value (s.startText index block) := by
  unfold startText
  dsimp only
  split
  next hempty =>
    rw [hempty] at htext ⊢
    refine Move.hide index _ ⟨htool, fun i text h => ?_⟩ (blockEvent_of_textAt htext)
      (by simp [hstarted]) hfresh Hidden.text
    rw [htext] at h
    exact (Prod.mk.inj (Option.some.inj h)).2.symm
  next hne =>
    rw [beginTextContent_eq hs hstarted]
    have hmove : Move lib s value _ := Move.showText index "" _ responseId htext hne htool hstarted
      (.inl ⟨hfresh, rfl⟩) hopen
    rw [String.empty_append] at hmove
    simpa [emitTextDelta, withPart, hstarted] using hmove

/-- The frames of the first arguments of a call. -/
theorem argumentsDelta_first (responseId : Option String) (target : ClientToolTarget) (id : String)
    (outputIndex : Nat) (arguments : String) :
    (if target.kind = .function ∧ arguments ≠ "" then
      [Frame.functionCallArgumentsDelta responseId id outputIndex arguments] else []) =
    if arguments = "" then [] else argumentsDelta responseId target id outputIndex arguments := by
  by_cases hempty : arguments = ""
  · simp [hempty]
  · cases hkind : target.kind <;> simp [hempty, hkind, argumentsDelta]

theorem move_startTool {block : Json.Fields} (hs : s.terminal = false)
    (hstarted : s.responseId.isSome) (hfresh : s.assistantBlocks[index]? = none)
    (htool : toolAt value = (trimmedText (block.get "id")).map fun id => (index, id))
    (htext : textAt value = none) : Move lib s value (s.startTool lib index block) := by
  unfold startTool
  obtain ⟨hclosable, hfinish⟩ | ⟨-, hfinish⟩ := finishActiveTextOutput_cases hs
  · rw [hfinish]
    dsimp only
    have hfail : Move lib s value s.closeText.failInvalid :=
      @Move.failed lib s value s.closeText s.closingFrames hs _ rfl rfl (.inr ⟨hclosable, rfl⟩)
    split
    next => exact hfail
    next id hid =>
      split
      next => exact hfail
      next name _ =>
        split
        next => exact hfail
        next target _ =>
          split
          next => exact hfail
          next hnew =>
            split
            next => exact hfail
            next =>
              rw [hid] at htool
              have hmove : Move lib s value _ := Move.showTool index id name target
                (initialArguments lib block) htool htext hstarted hfresh hclosable
                (Bool.eq_false_of_not_eq_true hnew)
              rw [← argumentsDelta_first] at hmove
              convert hmove using 1
              split <;> simp [frame, closeText]
  · rw [hfinish]
    exact Move.failedInvalid hs rfl rfl

theorem move_handleBlockStart (hs : s.terminal = false)
    (hkind : eventKind value = some "content_block_start") :
    Move lib s value (s.handleBlockStart lib value) := by
  unfold handleBlockStart
  split
  next => exact Move.failInvalid hs
  next index hindex =>
    split
    next => exact Move.failInvalid hs
    next block hblock =>
      have hstarts : startedBlock value = some (index, block) := by
        simp [startedBlock, hkind, hindex, hblock]
      have hdelta : blockDeltaOf value = none := by
        simp [blockDeltaOf, hkind]
      split
      next => exact Move.failInvalid hs
      next hguard =>
        simp only [not_or, Bool.not_eq_true, Option.isNone_eq_false_iff] at hguard
        obtain ⟨hstarted, hcontains, hopen⟩ := hguard
        have hfresh : s.assistantBlocks[index]? = none := by
          rwa [← Option.isNone_iff_eq_none, ← Option.isSome_eq_false_iff,
            Std.ExtTreeMap.isSome_getElem?_eq_contains]
        obtain ⟨responseId, hresponseId⟩ := Option.isSome_iff_exists.mp hstarted
        have hsilent : (block.get "type").bind Json.asStr ≠ some "text" →
            (block.get "type").bind Json.asStr ≠ some "tool_use" → Silent value := by
          intro hnotText hnotTool
          refine ⟨by simp [toolAt, hstarts, hnotTool], fun i text h => ?_⟩
          simp [textAt, hstarts, hdelta, hnotText] at h
        split
        next htype =>
          exact move_startText hs hresponseId hfresh hopen (by simp [toolAt, hstarts, htype])
            (by simp [textAt, hstarts, htype])
        next htype =>
          exact move_startTool hs hstarted hfresh (by simp [toolAt, hstarts, htype])
            (by simp [textAt, hstarts, hdelta, htype])
        next htype =>
          exact Move.hide index _ (hsilent (by simp [htype]) (by simp [htype])) (.inl hkind) hstarted
            hfresh (Hidden.thinking _ _)
        next htype =>
          unfold startRedactedThinking
          split
          next => exact Move.failInvalid hs
          next data _ =>
            exact Move.hide index _ (hsilent (by simp [htype]) (by simp [htype])) (.inl hkind)
              hstarted hfresh (Hidden.redactedThinking data)
        next => exact Move.failInvalid hs

/-- Blocks come after the start of the message. -/
def Started (s : MessagesStream) : Prop :=
  ∀ (index : Nat) (block : StreamBlock), s.assistantBlocks[index]? = some block →
    s.responseId.isSome

theorem insert_insert (blocks : Table Nat StreamBlock) (index : Nat) (block block' : StreamBlock) :
    (blocks.insert index block).insert index block' = blocks.insert index block' := by
  refine Std.ExtTreeMap.ext_getElem? fun k => ?_
  simp only [Std.ExtTreeMap.getElem?_insert]
  split <;> rfl

theorem move_appendText {delta : String} (hs : s.terminal = false)
    (hstarted : s.Started) (hopen : index ∉ s.closedBlocks) (htool : toolAt value = none)
    (htext : textAt value = some (index, delta)) (hdelta : delta ≠ "") :
    Move lib s value (s.appendText index delta) := by
  unfold appendText
  split
  next text contentIndex outputIndex hblock =>
    dsimp only
    split
    next => exact Move.failedInvalid hs rfl rfl
    next textOutput hfilter =>
      obtain ⟨hactive, hsame⟩ := Option.filter_eq_some_iff.mp hfilter
      obtain ⟨responseId, hresponseId⟩ := Option.isSome_iff_exists.mp (hstarted _ _ hblock)
      obtain rfl : textOutput.outputIndex = outputIndex := by simpa using hsame
      have hmove : Move lib s value _ := Move.growText index text delta responseId contentIndex
        textOutput htext hdelta htool hactive hblock hopen
      simpa [emitTextDelta, hresponseId] using hmove
  next => exact Move.failInvalid hs

theorem move_textDelta {delta : Json.Fields} (hs : s.terminal = false)
    (hstarted : s.Started) (hopen : index ∉ s.closedBlocks) (htool : toolAt value = none)
    (husage : usageStep s.usage value = s.usage)
    (htext : textAt value = ((delta.get "text").bind Json.asStr).map fun text => (index, text)) :
    Move lib s value (s.textDelta index delta) := by
  unfold textDelta
  split
  next => exact Move.failInvalid hs
  next text hread =>
    rw [hread] at htext
    split
    next hempty =>
      refine Move.same ⟨htool, fun i other h => ?_⟩ husage
      rw [htext] at h
      rw [← (Prod.mk.inj (Option.some.inj h)).2, hempty]
    next hne =>
      split
      next old outputIndex hblock =>
        obtain ⟨responseId, hresponseId⟩ := Option.isSome_iff_exists.mp (hstarted _ _ hblock)
        rw [beginTextContent_eq hs hresponseId]
        have hmove : Move lib s value _ := Move.showText index old text responseId htext hne htool
          hresponseId (.inr ⟨_, hblock⟩) hopen
        convert hmove using 1
        simp [appendText, withPart, emitTextDelta, hresponseId, Option.filter, insert_insert]
      next => exact move_appendText hs hstarted hopen htool htext hne
      next => exact Move.failInvalid hs

theorem move_blockDelta {delta : Json.Fields} (hs : s.terminal = false)
    (hopen : index ∉ s.closedBlocks) (hsilent : Silent value) (hkind : BlockEvent value) :
    Move lib s value (s.blockDelta index delta) := by
  unfold blockDelta
  dsimp only
  split
  next id itemId upstreamName target arguments outputIndex hblock _ =>
    split
    next => exact Move.failInvalid hs
    next more _ =>
      have hmove : Move lib s value _ := Move.grow index _ _ _ hsilent hkind hblock hopen
        (Grows.tool id itemId upstreamName target arguments more outputIndex)
      cases htarget : target.kind with
      | function => simpa [argumentsDelta, htarget, frame] using hmove
      | custom => simpa [argumentsDelta, htarget] using hmove
  next thinking signature hblock _ =>
    split
    next => exact Move.failInvalid hs
    next more _ =>
      have hmove : Move lib s value _ := Move.grow index _ _ _ hsilent hkind hblock hopen
        (Grows.thinking thinking (thinking ++ more) signature signature)
      simpa using hmove
  next thinking signature hblock _ =>
    split
    next => exact Move.failInvalid hs
    next more _ =>
      have hmove : Move lib s value _ := Move.grow index _ _ _ hsilent hkind hblock hopen
        (Grows.thinking thinking thinking signature (some (signature.getD "" ++ more)))
      simpa using hmove
  next => exact Move.failInvalid hs

theorem move_handleBlockDelta (hs : s.terminal = false) (hstarted : s.Started)
    (hkind : eventKind value = some "content_block_delta") :
    Move lib s value (s.handleBlockDelta value) := by
  have hstart : startedBlock value = none := by simp [startedBlock, hkind]
  have htool : toolAt value = none := by simp [toolAt, hstart]
  unfold handleBlockDelta
  split
  next => exact Move.failInvalid hs
  next index hindex =>
    split
    next => exact Move.failInvalid hs
    next delta hdelta =>
      have hbrings : blockDeltaOf value = some (index, delta) := by
        simp [blockDeltaOf, hkind, hindex, hdelta]
      split
      next => exact Move.failInvalid hs
      next hopen =>
        split
        next htype =>
          exact move_textDelta hs hstarted hopen htool
            (usageStep_of_kind (by simp [hkind]) (by simp [hkind]))
            (by simp [textAt, hstart, hbrings, htype])
        next htype =>
          refine move_blockDelta hs hopen ⟨htool, fun i text h => ?_⟩ (.inr (.inl hkind))
          simp [textAt, hstart, hbrings, htype] at h

theorem move_handleBlockStop (hs : s.terminal = false)
    (hkind : eventKind value = some "content_block_stop") :
    Move lib s value (s.handleBlockStop lib value) := by
  have hsilent := silent_of_kind hkind (by decide) (by decide)
  unfold handleBlockStop
  split
  next => exact Move.failInvalid hs
  next index _ =>
    split
    next => exact Move.failInvalid hs
    next hopen =>
      dsimp only
      have hclose : ∀ {block frames}, s.assistantBlocks[index]? = some block →
          Closes lib s block frames → Move lib s value { s with
            closedBlocks := insert index s.closedBlocks, output := s.output ++ frames } :=
        fun hblock hcloses => Move.close index _ _ hsilent (.inr (.inr hkind)) hblock hopen hcloses
      have hfail : Move lib s value
          { s with closedBlocks := insert index s.closedBlocks }.failInvalid :=
        Move.failedInvalid hs rfl rfl
      split
      next => exact hfail
      next text contentIndex outputIndex hblock =>
        unfold stopText
        split
        next contentIndex outputIndex =>
          split
          next => exact hfail
          next textOutput hfilter =>
            obtain ⟨hactive, hsame⟩ := Option.filter_eq_some_iff.mp hfilter
            obtain rfl : textOutput.outputIndex = outputIndex := by simpa using hsame
            simpa [frame] using hclose hblock (Closes.text text contentIndex textOutput hactive)
        next hnot =>
          have hhidden : contentIndex = none ∨ outputIndex = none := by
            cases contentIndex with
            | none => exact .inl rfl
            | some c =>
              cases outputIndex with
              | none => exact .inr rfl
              | some o => exact (hnot c o rfl rfl).elim
          simpa using hclose hblock (Closes.hiddenText text contentIndex outputIndex hhidden)
      next id itemId upstreamName target arguments outputIndex hblock =>
        unfold stopTool
        dsimp only
        split
        next => exact hfail
        next input hinput =>
          split
          next hkind =>
            have hpayload : FinalPayload lib arguments target.kind (finalArguments arguments) := by
              rw [hkind]
              exact FinalPayload.function input hinput
            simpa [frame, payloadDone, hkind, finalArguments] using
              hclose hblock (Closes.tool id itemId upstreamName target arguments outputIndex _ hpayload)
          next hkind =>
            split
            next => exact hfail
            next payload hpayload =>
              have hpayload : FinalPayload lib arguments target.kind payload := by
                rw [hkind]
                exact FinalPayload.custom input payload hinput hpayload
              simpa [frame, payloadDone, hkind] using hclose hblock
                (Closes.tool id itemId upstreamName target arguments outputIndex _ hpayload)
      next thinking signature hblock =>
        simpa using hclose hblock (Closes.thinking thinking signature)
      next data hblock => simpa using hclose hblock (Closes.redactedThinking data)

theorem move_complete (hs : s.terminal = false) (hkind : eventKind value = some "message_stop") :
    Move lib s value (s.complete lib) := by
  unfold complete
  split
  next => exact Move.failInvalid hs
  next hguard =>
    simp only [not_or, Bool.not_eq_true, Option.isNone_eq_false_iff, not_not] at hguard
    obtain ⟨hstarted, -, hcard⟩ := hguard
    obtain ⟨hclosable, hfinish⟩ | ⟨-, hfinish⟩ := finishActiveTextOutput_cases hs
    · rw [hfinish]
      dsimp only
      have hfail : ∀ s₁ : MessagesStream, s₁.terminal = s.terminal → s₁.completed = s.completed →
          s₁.output = s.closeText.output → ∀ error, Move lib s value (s₁.fail error) :=
        fun s₁ hterminal hcompleted houtput error =>
          Move.failed (hterminal.trans hs) error hcompleted houtput (.inr ⟨hclosable, rfl⟩)
      split
      next => exact hfail s.closeText rfl rfl rfl _
      next request hrequest =>
        split
        next => exact hfail { s.closeText with request := none } rfl rfl rfl _
        next response hresponse =>
          exact Move.complete _ request response hkind hstarted hcard hclosable hrequest hresponse
            rfl rfl rfl
    · rw [hfinish]
      exact Move.failedInvalid hs rfl rfl

/-- The list of moves is complete. -/
theorem move_handleValue (hs : s.terminal = false) (hstarted : s.Started) :
    Move lib s value (s.handleValue lib value) := by
  unfold handleValue
  split
  next => exact Move.failInvalid hs
  next hkind => exact move_handleMessageStart hs hkind
  next hkind => exact move_handleBlockStart hs hkind
  next hkind =>
    split
    next hignored =>
      exact Move.same (silent_of_isIgnoredDelta hkind hignored)
        (usageStep_of_kind (by simp [eventKind, hkind]) (by simp [eventKind, hkind]))
    next => exact move_handleBlockDelta hs hstarted hkind
  next hkind => exact move_handleBlockStop hs hkind
  next hkind =>
    have hmove : Move lib s value _ := Move.idle (silent_of_kind hkind (by decide) (by decide))
    rw [usageStep, eventKind, hkind] at hmove
    exact hmove
  next hkind => exact move_complete hs hkind
  next hkind =>
    exact Move.same (silent_of_kind hkind (by decide) (by decide))
      (usageStep_of_kind (by simp [eventKind, hkind]) (by simp [eventKind, hkind]))
  next => exact Move.failedInvalid hs rfl rfl
  next kind hmessage hstart hdelta _ hmessageDelta _ _ _ hkind =>
    split
    next =>
      exact Move.same (silent_of_kind hkind hstart hdelta)
        (usageStep_of_kind (by simpa [eventKind, hkind] using hmessage)
          (by simpa [eventKind, hkind] using hmessageDelta))
    next => exact Move.failInvalid hs

/-! ## Runs -/

variable {s' : MessagesStream}

theorem Started.move (h : s.Started) (hmove : Move lib s value s')
    (hs' : s'.terminal = false) : s'.Started := by
  cases hmove with
  | idle => exact h
  | start => exact fun _ _ _ => rfl
  | hide index block _ _ hstarted => exact fun _ _ _ => hstarted
  | showText index text delta responseId _ _ _ hstarted =>
    exact fun _ _ _ => Option.isSome_of_eq_some hstarted
  | growText index text delta responseId contentIndex textOutput _ _ _ _ hblock =>
    exact fun _ _ _ => h index _ hblock
  | showTool index id name target arguments _ _ hstarted => exact fun _ _ _ => hstarted
  | grow index old new frames _ _ hblock => exact fun _ _ _ => h index old hblock
  | close => exact h
  | fail _ frames responseId model error hterminal =>
    rw [hterminal] at hs'
    exact nomatch hs'
  | complete _ request response _ _ _ _ _ _ hterminal =>
    rw [hterminal] at hs'
    exact nomatch hs'

/-- A move that goes on keeps the last report of usage, and there is no response yet. -/
theorem Move.goes_on (h : Move lib s value s') (hs' : s'.terminal = false) :
    s'.usage = usageStep s.usage value ∧ s'.completed = s.completed := by
  cases h with
  | idle => exact ⟨rfl, rfl⟩
  | start => exact ⟨rfl, rfl⟩
  | hide index block _ hkind => exact ⟨(usageStep_of_block hkind).symm, rfl⟩
  | showText index text delta responseId htext =>
    exact ⟨(usageStep_of_block (blockEvent_of_textAt htext)).symm, rfl⟩
  | growText index text delta responseId contentIndex textOutput htext =>
    exact ⟨(usageStep_of_block (blockEvent_of_textAt htext)).symm, rfl⟩
  | showTool index id name target arguments htool =>
    exact ⟨(usageStep_of_block (blockEvent_of_toolAt htool)).symm, rfl⟩
  | grow index old new frames _ hkind => exact ⟨(usageStep_of_block hkind).symm, rfl⟩
  | close index block frames _ hkind => exact ⟨(usageStep_of_block hkind).symm, rfl⟩
  | fail _ frames responseId model error hterminal =>
    rw [hterminal] at hs'
    exact nomatch hs'
  | complete _ request response _ _ _ _ _ _ hterminal =>
    rw [hterminal] at hs'
    exact nomatch hs'

/-- A move that ends the stream fails or completes it. -/
theorem Move.ends (h : Move lib s value s') (hs : s.terminal = false)
    (hs' : s'.terminal = true) :
    s'.completed = s.completed ∨
      ∃ request response, eventKind value = some "message_stop" ∧
        { s.closeText with request := none }.completedResponse lib request = .ok response ∧
        s'.completed = some response := by
  have hcontra : s.terminal = true → False := fun hterminal => by
    rw [hs] at hterminal
    exact nomatch hterminal
  cases h with
  | idle => exact (hcontra hs').elim
  | start => exact (hcontra hs').elim
  | hide => exact (hcontra hs').elim
  | showText => exact (hcontra hs').elim
  | growText => exact (hcontra hs').elim
  | showTool => exact (hcontra hs').elim
  | grow => exact (hcontra hs').elim
  | close => exact (hcontra hs').elim
  | fail _ frames responseId model error _ hcompleted => exact .inl hcompleted
  | complete _ request response hkind _ _ _ _ hresponse _ hcompleted =>
    exact .inr ⟨request, response, hkind, hresponse, hcompleted⟩

theorem completed_failInvalid (hs : s.terminal = false) : s.failInvalid.completed = s.completed := by
  rw [failInvalid, fail_running hs]
  rfl

/-- One event: it has no data, or it makes a move, or it cannot be read. -/
theorem handleEvent_cases (hs : s.terminal = false) (hstarted : s.Started) (event : List UInt8) :
    (parseSseData lib.serde event = none ∧
      (s.handleEvent lib event = s ∨ s.handleEvent lib event = s.failInvalid)) ∨
    ∃ value, parseSseData lib.serde event = some value ∧
      Move lib s value (s.handleEvent lib event) := by
  unfold handleEvent
  cases hparse : parseSseData lib.serde event with
  | none =>
    refine .inl ⟨rfl, ?_⟩
    dsimp only
    split
    next => exact .inr rfl
    next => exact .inl rfl
  | some value => exact .inr ⟨value, rfl, move_handleValue hs hstarted⟩

end

/-- The values of the events of a stream. -/
def eventValues (serde : Json.Serde) (events : List (List UInt8)) : List Json :=
  events.filterMap (parseSseData serde)

/-- The rule for runs: `Running` is kept by the moves that go on, with the values read so far, and
those that end the stream give `Ended`. -/
theorem handleAll_values {lib : Libraries} {Running Ended : MessagesStream → List Json → Prop}
    {s₀ : MessagesStream} (hs₀ : s₀.terminal = false) (hstarted : s₀.Started) (h₀ : Running s₀ [])
    (hmove : ∀ s values value s', s.terminal = false → Running s values → Move lib s value s' →
      (s'.terminal = false → Running s' (values ++ [value])) ∧
      (s'.terminal = true → Ended s' (values ++ [value])))
    (hfail : ∀ s values, s.terminal = false → Running s values → Ended s.failInvalid values)
    (events : List (List UInt8)) :
    let s := Framing.handleAll (handleEvent lib) terminal s₀ events
    (s.terminal = false ∧ s.Started ∧ Running s (eventValues lib.serde events)) ∨
    (s.terminal = true ∧ ∃ lead, lead <+: events ∧ Ended s (eventValues lib.serde lead)) := by
  induction events using List.reverseRecOn with
  | nil => exact .inl ⟨hs₀, hstarted, h₀⟩
  | append_singleton events event ih =>
    rw [Framing.handleAll_append]
    dsimp only at ih ⊢
    generalize Framing.handleAll (handleEvent lib) terminal s₀ events = s at ih ⊢
    rcases ih with ⟨hs, hstarted, hrunning⟩ | ⟨hs, lead, hlead, hended⟩
    · have hone : Framing.handleAll (handleEvent lib) terminal s [event] = s.handleEvent lib event := by
        rw [Framing.handleAll, if_neg (by rw [hs]; exact Bool.false_ne_true)]
        rfl
      have hvalues : eventValues lib.serde (events ++ [event]) =
          eventValues lib.serde events ++ (parseSseData lib.serde event).toList := by
        cases hparse : parseSseData lib.serde event <;> simp [eventValues, hparse]
      rw [hone]
      rcases handleEvent_cases hs hstarted event with ⟨hparse, hsame | hfailed⟩ | ⟨value, hparse, hm⟩
      · rw [hparse] at hvalues
        rw [hsame, hvalues]
        refine .inl ⟨hs, hstarted, ?_⟩
        rwa [Option.toList_none, List.append_nil]
      · rw [hparse] at hvalues
        rw [hfailed]
        refine .inr ⟨by rw [MessagesStream.failInvalid, fail_running hs], events ++ [event],
          List.prefix_rfl, ?_⟩
        rw [hvalues, Option.toList_none, List.append_nil]
        exact hfail s _ hs hrunning
      · rw [hparse, Option.toList_some] at hvalues
        obtain ⟨hgoes, hends⟩ := hmove s _ value _ hs hrunning hm
        cases hs' : (s.handleEvent lib event).terminal with
        | false =>
          rw [hvalues]
          exact .inl ⟨rfl, hstarted.move hm hs', hgoes hs'⟩
        | true =>
          refine .inr ⟨rfl, events ++ [event], List.prefix_rfl, ?_⟩
          rw [hvalues]
          exact hends hs'
    · rw [Framing.handleAll_of_terminal hs]
      exact .inr ⟨hs, lead, hlead.trans (List.prefix_append _ _), hended⟩

end Zenith.Protocol.MessagesStream
