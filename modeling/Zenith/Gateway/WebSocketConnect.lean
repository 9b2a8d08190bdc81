import Mathlib
import Zenith.Gateway.Execution

/-!
# Connecting a WebSocket request

`connect_upstream` of `gateway/websocket.rs`, the loop of `execute_request` for requests over WebSockets.
A round selects a candidate, opens a connection to it, sends the request and waits for the first messages.
The two loops repair a request in the same ways, and forget the candidate so that it is asked again. They
count differently: `execute_request` takes an attempt back when it repairs item ids, `connect_upstream`
does not. So a request that is repaired after the last attempt that the limit permits is not sent again
(`repaired_requests_sent`).

The loops share their variables: `connect_upstream` makes no native replay and has no adapter errors.
-/

namespace Zenith.Gateway

open Zenith.Protocol Zenith.Quota Zenith.Scheduler Zenith.Tables

/-! ## Rounds -/

structure ConnectRoute where
  wireApi : Scheduler.WireApi
  passthrough : Bool
  defaultTier : DefaultServiceTier

/-- A failure in the first messages: its status, what the client would see of it, and what the gateway
reads in it. -/
structure ConnectTerminal where
  status : Nat
  failure : AttemptFailure
  body : ErrorBody

/-- What came of the connection. -/
inductive Handshake
  /-- No answer, or the connection failed before the first messages. -/
  | failed (failure : AttemptFailure)
  /-- The upstream did not switch protocols. -/
  | rejected (status : Nat) (failure : AttemptFailure) (responseMissing : Bool)
  /-- The first messages, which may end with a failure. -/
  | opened (terminal : Option ConnectTerminal)

/-- What one round of the loop meets. -/
structure ConnectRound where
  scheduler : PoolScheduler
  scope : CandidateScope := {}
  nowMs : Nat
  route : Option ConnectRoute
  /-- `websocket_is_http_only`. -/
  httpOnly : Bool := false
  /-- `prepare_authorization`. -/
  prepared : Except AttemptFailure Unit := .ok ()
  /-- `payload_for`. -/
  payload : Except AttemptFailure Unit := .ok ()
  handshake : Handshake

/-- How the loop ended. -/
inductive ConnectResult
  | connected
  | failed (failure : AttemptFailure)
deriving DecidableEq, Repr

inductive ConnectControl
  | next (run : Run)
  | stop (run : Run) (result : ConnectResult)
  | leave (run : Run)

/-! ## The loop -/

def AttemptFailure.websocketHttpFallback : AttemptFailure := ⟨426, "upstream_websocket_unsupported"⟩

def AttemptFailure.unavailable : AttemptFailure := ⟨503, "no_eligible_source"⟩

def websocketTransportFallbackStatus (status : Nat) : Bool := status ∈ [400, 404, 405, 426, 501]

def connectSelectionRequest (context : RequestContext) (run : Run) (round : ConnectRound) :
    SelectionRequest where
  model := context.model
  allowedProtocols := [.responses]
  scope := round.scope
  tried := run.tried
  responseAffinityKey := context.responseAffinityKey
  promptAffinityKey := context.promptAffinityKey
  nowMs := round.nowMs

/-- `select_and_reserve`. -/
def connectSelection (context : RequestContext) (run : Run) (round : ConnectRound) : Option Selection :=
  let (scheduler, selection) := round.scheduler.selectFor (connectSelectionRequest context run round) .text
  selection.filter fun selection =>
    (scheduler.reserveForLane selection.candidateId context.model round.nowMs .text).2

/-- The recovery from encrypted content, when the failure asks for it. -/
def connectRecover (run : Run) (candidateId : String) (failure : AttemptFailure) : Option Run :=
  if failure.category = "upstream_encrypted_content_invalid" then
    (tryRecoverEncryptedContent run.request run.encryptedContentRecovered).map fun request =>
      ({ run with request, encryptedContentRecovered := true }.again candidateId).failedWith failure
  else none

def hasPreviousResponse (run : Run) : Bool := (previousResponseId run.request).isSome

/-- After a failure that no recovery was made for. `rest` is what happens with one that is final. -/
def connectFailed (run : Run) (selection : Selection) (status : Nat) (failure : AttemptFailure)
    (responseMissing : Bool) (rest : ConnectControl) : ConnectControl :=
  let affinityMiss := recoverableResponseAffinityMiss status (hasPreviousResponse run) responseMissing
  if affinityMiss || retryableFailure status failure.category (hasPreviousResponse run) then
    let run := if affinityMiss then { run with
      confirmedResponseMissing := run.confirmedResponseMissing || responseMissing
      ownerRecoveryConfirmed := run.ownerRecoveryConfirmed || !selection.responseAffinityHit }
    else run
    if affinityMiss && responseMissing && selection.responseAffinityHit then .leave (run.failedWith failure)
    else .next (run.failedWith failure)
  else rest

/-- After the first messages ended with a failure. -/
def onTerminal (run : Run) (selection : Selection) (terminal : ConnectTerminal) : ConnectControl :=
  match repairItemIds run terminal.body with
  | some run => .next { run.again selection.candidateId with lastFailure := none }
  | none =>
    match connectRecover run selection.candidateId terminal.failure with
    | some run => .next run
    | none =>
      -- A failure that is final goes to the client with the first messages.
      connectFailed run selection terminal.status terminal.failure terminal.body.previousResponseNotFound
        (.stop run .connected)

def onHandshake (run : Run) (selection : Selection) : Handshake → ConnectControl
  | .failed failure => .next (run.failedWith failure)
  | .rejected status failure responseMissing =>
    if websocketTransportFallbackStatus status then .next (run.failedWith .websocketHttpFallback)
    else
      match connectRecover run selection.candidateId failure with
      | some run => .next run
      | none =>
        connectFailed run selection status failure responseMissing (.stop run (.failed failure))
  | .opened none => .stop run .connected
  | .opened (some terminal) => onTerminal run selection terminal

/-- The attempt on a candidate that can be connected to. -/
def onConnectAttempt (run : Run) (selection : Selection) (round : ConnectRound) : ConnectControl :=
  match round.prepared, round.payload with
  | .error failure, _ => .next (run.failedWith failure)
  | .ok (), .error failure => .stop run (.failed failure)
  | .ok (), .ok () => onHandshake run selection round.handshake

/-- The selected candidate: its route, and the attempt if it takes WebSockets. -/
def onConnectSelected (context : RequestContext) (run : Run) (selection : Selection) (round : ConnectRound) :
    ConnectControl :=
  match round.route with
  | none => .next run
  | some route =>
    let run := { run with request := prepareForCandidate context.tierOwner run.request route.defaultTier false }
    if route.wireApi ≠ .responses then .next run
    else if !route.passthrough || round.httpOnly then .next (run.failedWith .websocketHttpFallback)
    else onConnectAttempt (run.attempted selection.candidateId) selection round

/-- One round of the loop. -/
def connectIterate (context : RequestContext) (run : Run) (round : ConnectRound) : ConnectControl :=
  match connectSelection context run round with
  | none => .leave run
  | some selection =>
    onConnectSelected context { run with tried := insert selection.candidateId run.tried } selection round

/-- The loop: the variables at its end, the rounds it took, and the result if a round gave one. `fuel`
bounds the rounds. -/
def connectLoop (options : RetryOptions) (context : RequestContext) (rounds : Nat → ConnectRound) :
    Nat → Nat → Run → Option (Run × Nat × Option ConnectResult)
  | 0, _, _ => none
  | fuel + 1, n, run =>
    if run.attemptsThisRun < run.limit options then
      match connectIterate context run (rounds n) with
      | .next run => connectLoop options context rounds fuel (n + 1) run
      | .stop run result => some (run, n + 1, some result)
      | .leave run => some (run, n + 1, none)
    else some (run, n, none)

/-- The result after the loop. -/
def connectAfterLoop (context : RequestContext) (run : Run) (round : ConnectRound) : ConnectResult :=
  let everyone := { connectSelectionRequest context run round with tried := ∅, promptAffinityKey := none }
  if (round.scheduler.earliestRetryAt everyone).2.isSome then .failed ⟨429, "all_candidates_cooling_down"⟩
  else .failed (run.lastFailure.getD .unavailable)

/-- The loops of a request, and its result. -/
structure ConnectExecuted where
  runs : List Run
  result : ConnectResult

def connectUpstream (options : RetryOptions) (rounds : Nat → ConnectRound) :
    Nat → Nat → RequestContext → Option ConnectExecuted
  | 0, _, _ => none
  | fuel + 1, n, context => do
    let (run, n, result) ← connectLoop options context rounds fuel n
      { request := context.request, attempt := context.attemptOffset }
    match result with
    | some result => return ⟨[run], result⟩
    | none =>
      match run.request.asObject with
      | some object =>
        if context.allowPreviousResponseReset && hasPreviousResponse run && run.confirmedResponseMissing &&
            !containsToolCallOutput run.request then
          let nested ← connectUpstream options rounds fuel n (resetContext context run object)
          return ⟨run :: nested.runs, nested.result⟩
        else return ⟨[run], connectAfterLoop context run (rounds n)⟩
      | none => return ⟨[run], connectAfterLoop context run (rounds n)⟩

end Zenith.Gateway
