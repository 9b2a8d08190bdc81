import Mathlib
import Zenith.Protocol.Contracts

/-!
# Replay of native Responses conversations

`NativeResponsesReplayState` of `protocol/adapter/contracts.rs`: the request of a completed turn and
its output, kept so that a later turn can be sent with the conversation in its input when the upstream
rejects `previous_response_id`. `replay_native_tool_continuation` and the two places of
`gateway/execution/request.rs` that save the state give the conversations: a turn is either accepted by
the upstream as it is, or served through the replay of the state of the turn before it, and saves the
request that was sent last.

What a state replays is the conversation since the last turn that the upstream accepted as it is
(`Conversation.held`). A turn that continues another one and is accepted natively holds only its own
input, so everything before it is lost from the next replay (`replay_whole_iff`).
-/

namespace Zenith.Protocol

open Zenith.Tables Zenith.Text

structure NativeResponsesReplayState where
  model : String
  request : Json
  output : List Json
deriving DecidableEq

/-- The object of a response in what the upstream sent. -/
def responseOf (upstream : Json) : Json :=
  (((upstream.get "response").bind fun outer => outer.get "response").or
    (upstream.get "response")).getD upstream

/-- The output of a response; nothing when it is no array. -/
def outputItems (upstream : Json) : List Json :=
  (((responseOf upstream).get "output").bind Json.asArray).getD []

/-- `append_replay_input`. -/
def appendReplayInput (target : List Json) : Json → AdapterResult (List Json)
  | .string text => .ok (target ++ [.ofFields [("role", .string "user"),
      ("content", .array [.ofFields [("type", .string "input_text"), ("text", .string text)]])]])
  | .array items => .ok (target ++ items)
  | .object item => .ok (target ++ [.object item])
  | _ => .error AdapterError.invalidRequest

/-- The keys of a continuation that replace those of the replayed request. -/
def replayedKeys : List String :=
  ["instructions", "tools", "tool_choice", "reasoning", "max_output_tokens", "temperature", "top_p",
    "top_logprobs", "truncation", "parallel_tool_calls", "include", "metadata", "service_tier", "store"]

namespace NativeResponsesReplayState

/-- The state that a completed response saves, with the id it is saved under. -/
def fromResponse (request : Json) (model : String) (upstream : Json) :
    Option (String × NativeResponsesReplayState) := do
  let responseId ← trimmedText ((responseOf upstream).get "id")
  let request ← request.asObject
  if (request.get "input").isNone then none
  else
    return (responseId, { model, request := .object request, output := outputItems upstream })

/-- `replay_request`: the request of a continuation with the turn of the state in its input. -/
def replayRequest (state : NativeResponsesReplayState) (continuation : Json) (model : String)
    (stream : Bool) : AdapterResult Json := do
  if !eqIgnoreAsciiCase state.model model then .error AdapterError.continuationMismatch
  let continuation ← okOr continuation.asObject AdapterError.invalidRequest
  let request ← okOr state.request.asObject AdapterError.invalidRequest
  let initialInput ← okOr (request.get "input") AdapterError.invalidRequest
  let request := request.remove "input"
  let currentInput ← okOr (continuation.get "input") AdapterError.invalidRequest
  let input ← appendReplayInput [] initialInput
  let input ← appendReplayInput (input ++ state.output) currentInput
  if input.isEmpty then .error AdapterError.invalidRequest
  let request := replayedKeys.foldl (fun request key =>
    match continuation.get key with
    | some value => request.insert key value
    | none => request) request
  let request := request.remove "previous_response_id"
  let request := request.insert "model" (.string model)
  let request := request.insert "stream" (.bool stream)
  return .object (request.insert "input" (.array input))

end NativeResponsesReplayState

open NativeResponsesReplayState

/-- The response that a request continues. -/
def previousResponseId (request : Json) : Option String :=
  trimmedText (request.get "previous_response_id")

/-! ## Conversations -/

/-- How the upstream came to answer a turn. -/
inductive Served
  /-- It accepted the request as it is. -/
  | accepted
  /-- It rejected `previous_response_id`, and then accepted the replayed request. -/
  | replayed
deriving DecidableEq, Repr

/-- A completed turn: the request of the client for the selected candidate, and the response. -/
structure NativeTurn where
  request : Json
  model : String
  stream : Bool
  served : Served
  upstream : Json

/-- The conversations on one candidate and key. `Conversation turns id state`: after these turns the
last response has this id, and the state is what was saved for it. -/
inductive Conversation : List NativeTurn → String → NativeResponsesReplayState → Prop
  | first {turn : NativeTurn} {id : String} {state : NativeResponsesReplayState} :
      turn.served = .accepted → previousResponseId turn.request = none →
      fromResponse turn.request turn.model turn.upstream = some (id, state) →
      Conversation [turn] id state
  | accepted {turns : List NativeTurn} {turn : NativeTurn} {previous id : String}
      {before state : NativeResponsesReplayState} :
      Conversation turns previous before → turn.served = .accepted →
      previousResponseId turn.request = some previous →
      fromResponse turn.request turn.model turn.upstream = some (id, state) →
      Conversation (turns ++ [turn]) id state
  | replayed {turns : List NativeTurn} {turn : NativeTurn} {previous id : String}
      {before state : NativeResponsesReplayState} {request : Json} :
      Conversation turns previous before → turn.served = .replayed →
      previousResponseId turn.request = some previous →
      before.replayRequest turn.request turn.model turn.stream = .ok request →
      fromResponse request turn.model turn.upstream = some (id, state) →
      Conversation (turns ++ [turn]) id state

/-- The input of a request as the items of a conversation. -/
def inputItems (request : Json) : List Json :=
  match request.get "input" with
  | some input => (appendReplayInput [] input).toOption.getD []
  | none => []

/-- What a turn adds to the conversation. -/
def NativeTurn.items (turn : NativeTurn) : List Json :=
  inputItems turn.request ++ outputItems turn.upstream

/-- All inputs and outputs of the turns, in order. -/
def history (turns : List NativeTurn) : List Json := turns.flatMap NativeTurn.items

/-- The items that a state replays. -/
def NativeResponsesReplayState.held (state : NativeResponsesReplayState) : List Json :=
  inputItems state.request ++ state.output

theorem history_concat (turns : List NativeTurn) (turn : NativeTurn) :
    history (turns ++ [turn]) = history turns ++ turn.items := by
  rw [history, List.flatMap_append, List.flatMap_singleton, history]

theorem appendReplayInput_eq_ok {target items : List Json} {input : Json}
    (h : appendReplayInput target input = .ok items) :
    ∃ added, appendReplayInput [] input = .ok added ∧ items = target ++ added := by
  unfold appendReplayInput at h ⊢
  split at h <;> cases h <;> exact ⟨_, rfl, rfl⟩

theorem inputItems_eq {request input : Json} {items : List Json} (hget : request.get "input" = some input)
    (h : appendReplayInput [] input = .ok items) : inputItems request = items := by
  rw [inputItems, hget]
  show (appendReplayInput [] input).toOption.getD [] = items
  rw [h]
  rfl

variable {state : NativeResponsesReplayState}

/-- A replayed request holds the items of the state and then those of the continuation, and continues
nothing. -/
theorem replayRequest_spec {continuation request : Json}
    {model : String} {stream : Bool}
    (h : state.replayRequest continuation model stream = .ok request) :
    request.get "input" = some (.array (state.held ++ inputItems continuation)) ∧
      request.get "previous_response_id" = none := by
  unfold replayRequest at h
  split at h
  case isTrue => exact nomatch h
  case isFalse =>
    simp only [bind_eq_ok, okOr_eq_ok] at h
    obtain ⟨fields, hfields, stored, hstored, initial, hinitial, current, hcurrent, before, hbefore,
      input, hinput, h⟩ := h
    split at h
    case isTrue => exact nomatch h
    case isFalse =>
      cases h
      obtain ⟨added, hadded, rfl⟩ := appendReplayInput_eq_ok hinput
      have hheld : inputItems state.request = before :=
        inputItems_eq ((Json.get_of_asObject hstored "input").trans hinitial) hbefore
      have hcontinued : inputItems continuation = added :=
        inputItems_eq ((Json.get_of_asObject hfields "input").trans hcurrent) hadded
      rw [held, hheld, hcontinued]
      constructor
      · rw [Json.get, Json.Fields.get_insert, if_pos rfl]
      · rw [Json.get, Json.Fields.get_insert, if_neg (by decide), Json.Fields.get_insert,
          if_neg (by decide), Json.Fields.get_insert, if_neg (by decide), Json.Fields.get_remove,
          if_pos rfl]

theorem fromResponse_spec {request upstream : Json} {model id : String}
    (h : fromResponse request model upstream = some (id, state)) :
    state.held = inputItems request ++ outputItems upstream := by
  simp only [fromResponse, Option.bind_eq_bind, Option.bind_eq_some_iff] at h
  obtain ⟨_, -, fields, hfields, h⟩ := h
  split at h
  case isTrue => exact nomatch h
  case isFalse =>
    obtain ⟨rfl, rfl⟩ := Prod.mk.inj (Option.some.inj h)
    have hobject : request = .object fields := by
      cases request with
      | object _ => exact congrArg Json.object (Option.some.inj hfields)
      | _ => exact nomatch hfields
    rw [held, hobject]

/-! ## When the replay is whole -/

/-- Nothing came before a turn that the upstream accepted as it is. -/
def AcceptedFirst (turns : List NativeTurn) : Prop :=
  ∀ before turn after, turns = before ++ turn :: after → turn.served = .accepted → history before = []

variable {turns : List NativeTurn}

theorem acceptedFirst_concat {turn : NativeTurn} :
    AcceptedFirst (turns ++ [turn]) ↔
      AcceptedFirst turns ∧ (turn.served = .accepted → history turns = []) := by
  constructor
  · intro h
    refine ⟨fun before t after heq => ?_, h turns turn [] rfl⟩
    exact h before t (after ++ [turn]) (by rw [heq, List.append_assoc, List.cons_append])
  · rintro ⟨hturns, hlast⟩ before t after heq hserved
    -- The cut is at the last turn, or among the earlier ones.
    rcases List.eq_nil_or_concat after with rfl | ⟨after, last, rfl⟩
    · obtain ⟨rfl, hturn⟩ := List.append_inj' heq rfl
      cases hturn
      exact hlast hserved
    · rw [List.concat_eq_append, ← List.cons_append, ← List.append_assoc] at heq
      obtain ⟨rfl, -⟩ := List.append_inj' heq rfl
      exact hturns before t after rfl hserved

theorem acceptedFirst_of_history_nil (h : history turns = []) :
    AcceptedFirst turns := by
  rintro before turn after rfl -
  rw [history, List.flatMap_append] at h
  exact (List.append_eq_nil_iff.mp h).1

/-- What a state holds is the whole conversation exactly when no turn that was accepted as it is had
something before it. -/
theorem Conversation.held_eq_history_iff {id : String}
    (h : Conversation turns id state) :
    state.held = history turns ↔ AcceptedFirst turns := by
  induction h with
  | @first turn id state hserved hfresh hstate =>
    have hfirst : AcceptedFirst [turn] :=
      (@acceptedFirst_concat [] turn).mpr ⟨acceptedFirst_of_history_nil rfl, fun _ => rfl⟩
    rw [fromResponse_spec hstate]
    exact iff_of_true (List.flatMap_singleton ..).symm hfirst
  | @accepted turns turn previous id before state hbefore hserved hprevious hstate ih =>
    rw [fromResponse_spec hstate, history_concat, acceptedFirst_concat]
    -- The state holds the items of this turn only.
    show turn.items = history turns ++ turn.items ↔ _
    constructor
    · intro heq
      have hnil : history turns = [] := List.self_eq_append_left.mp heq
      exact ⟨acceptedFirst_of_history_nil hnil, fun _ => hnil⟩
    · rintro ⟨-, hnil⟩
      rw [hnil hserved, List.nil_append]
  | @replayed turns turn previous id before state request hbefore hserved hprevious hrequest hstate ih =>
    have hinput : inputItems request = before.held ++ inputItems turn.request :=
      inputItems_eq (replayRequest_spec hrequest).1 rfl
    rw [fromResponse_spec hstate, hinput, history_concat, acceptedFirst_concat, ← ih,
      List.append_assoc]
    show before.held ++ turn.items = history turns ++ turn.items ↔ _
    rw [List.append_left_inj]
    exact (and_iff_left fun haccepted => nomatch hserved.symm.trans haccepted).symm

/-- The request that the next continuation is replayed with has the whole conversation and then its
own input exactly when no turn that was accepted as it is had something before it. -/
theorem replay_whole_iff {turns : List NativeTurn} {id : String} {state : NativeResponsesReplayState}
    (h : Conversation turns id state) {next : Json} {model : String} {stream : Bool} {request : Json}
    (hrequest : state.replayRequest next model stream = .ok request) :
    (request.get "input" = some (.array (history turns ++ inputItems next)) ∧
      request.get "previous_response_id" = none) ↔ AcceptedFirst turns := by
  obtain ⟨hinput, hnone⟩ := replayRequest_spec hrequest
  rw [hinput, ← h.held_eq_history_iff, and_iff_left hnone, Option.some.injEq, Json.array.injEq,
    List.append_left_inj]

/-! A shell session: the client answers a tool call and then goes on. `shellTurns` has the two completed
turns, and says how the second was served. -/

def shellRequest : Json := .ofFields [("input", .array [.string "inspect the workspace"])]

def shellCall : Json := .ofFields [("type", .string "function_call"), ("call_id", .string "call_1")]

def shellOutput : Json :=
  .ofFields [("type", .string "function_call_output"), ("call_id", .string "call_1")]

def shellAnswer : Json :=
  .ofFields [("previous_response_id", .string "resp_1"), ("input", .array [shellOutput])]

def shellReplayed : Json :=
  .ofFields [("model", .string "gpt-test"), ("stream", .bool false),
    ("input", .array [.string "inspect the workspace", shellCall, shellOutput])]

def shellNext : Json :=
  .ofFields [("previous_response_id", .string "resp_2"), ("input", .array [.string "go on"])]

def shellTurn (request : Json) (served : Served) (id : String) (output : List Json) : NativeTurn :=
  { request, model := "gpt-test", stream := false, served,
    upstream := .ofFields [("id", .string id), ("output", .array output)] }

def shellTurns (served : Served) : List NativeTurn :=
  [shellTurn shellRequest .accepted "resp_1" [shellCall]] ++
    [shellTurn shellAnswer served "resp_2" []]

/-- What is saved for the second response when this request was sent last. -/
def shellState (request : Json) : NativeResponsesReplayState := ⟨"gpt-test", request, []⟩

theorem shell_first : Conversation [shellTurn shellRequest .accepted "resp_1" [shellCall]] "resp_1"
    ⟨"gpt-test", shellRequest, [shellCall]⟩ :=
  .first rfl (by decide +kernel) (by decide +kernel)

theorem shell_accepted : Conversation (shellTurns .accepted) "resp_2" (shellState shellAnswer) :=
  .accepted shell_first rfl (by decide +kernel) (by decide +kernel)

theorem shell_replayed : Conversation (shellTurns .replayed) "resp_2" (shellState shellReplayed) := by
  have hrequest : replayRequest ⟨"gpt-test", shellRequest, [shellCall]⟩ shellAnswer "gpt-test" false =
      .ok shellReplayed := by decide +kernel
  exact .replayed shell_first rfl (by decide +kernel) hrequest (by decide +kernel)

theorem replay_whole_iff_shell :
    ∃ request, (shellState shellReplayed).replayRequest shellNext "gpt-test" false = .ok request ∧
      ((request.get "input" =
          some (.array (history (shellTurns .replayed) ++ inputItems shellNext)) ∧
        request.get "previous_response_id" = none) ↔ AcceptedFirst (shellTurns .replayed)) := by
  have hrequest : (shellState shellReplayed).replayRequest shellNext "gpt-test" false =
      .ok (.ofFields [("model", .string "gpt-test"), ("stream", .bool false), ("input", .array
        [.string "inspect the workspace", shellCall, shellOutput, .string "go on"])]) := by
    decide +kernel
  exact ⟨_, hrequest, replay_whole_iff shell_replayed hrequest⟩

/-- The second turn of the session was accepted as it is, and so only its own input is replayed: the tool
output is there without the call it answers. -/
theorem native_turn_forgotten : ¬ ∀ (turns : List NativeTurn) (id : String)
    (state : NativeResponsesReplayState), Conversation turns id state →
      ∀ (next : Json) (model : String) (stream : Bool) (request : Json),
        previousResponseId next = some id → state.replayRequest next model stream = .ok request →
          request.get "input" = some (.array (history turns ++ inputItems next)) ∧
            request.get "previous_response_id" = none := by
  intro h
  have hinput := (h _ _ _ shell_accepted shellNext "gpt-test" false
    (.ofFields [("model", .string "gpt-test"), ("stream", .bool false),
      ("input", .array [shellOutput, .string "go on"])])
    (by decide +kernel) (by decide +kernel)).1
  revert hinput
  decide +kernel

end Zenith.Protocol
