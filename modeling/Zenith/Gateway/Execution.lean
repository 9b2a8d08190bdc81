import Mathlib
import Zenith.Gateway.Attempts
import Zenith.Protocol.NativeReplay
import Zenith.Scheduler.SelectionContract

/-!
# The retry loop

`execute_request` of `gateway/execution/request.rs`. A round of the loop selects a candidate that was not
tried yet, prepares the request for it and sends it; the outcome ends the request, or lets the loop go
on. Some outcomes let the same candidate be tried again with a changed request: an item-id repair, which
does not count as an attempt, a native replay and a recovery from encrypted content, which raise the
limit of the loop by one each.

What a round meets is a `Round`: the scheduler, the route, what the adapter makes of the request, and the
answer of the upstream. It is arbitrary. Of the reply to the client only the way in which the request
ended is kept.

No counter of the loop decreases: a repair takes an attempt back and forgets a candidate. What decreases
is the number of recoveries that are left together with the candidates that are left
(`Run.remaining_lt`), and so the loop returns (`execution_within_budget`).
-/

namespace Zenith.Gateway

open Zenith.Protocol Zenith.Quota Zenith.Scheduler Zenith.Tables

/-! ## Rounds -/

/-- The settings of the runtime. The number of candidates is checked when the runtime is built. -/
structure RetryOptions where
  maxRetryCandidates : Nat
  inRange : 1 ≤ maxRetryCandidates ∧ maxRetryCandidates ≤ 8

/-- What the gateway reads in the body of an error. -/
structure ErrorBody where
  requiresFcPrefix : Bool := false
  requiresCtcPrefix : Bool := false
  requiresMsgPrefix : Bool := false
  requiresWebsocket : Bool := false
  invalidCallId : Bool := false
  zenithInvalidRequest : Bool := false
  previousResponseNotFound : Bool := false

/-- A body that was read to its end. `accountFailure`: an account answered with a failure. -/
structure CompletedBody where
  accountFailure : Option AttemptFailure := none
  translated : AdapterResult Unit := .ok ()

structure BootstrapFailure where
  failure : AttemptFailure
  zenithInvalidRequest : Bool

/-- The answer of the upstream to an attempt. -/
inductive Answer
  | unsent (failure : AttemptFailure)
  /-- A status that is no success, as the client would see it, with the body if it could be read. -/
  | rejected (status : Nat) (failure : AttemptFailure) (body : Option ErrorBody)
  /-- A success for a request that does not stream: the body, if it could be read. -/
  | completed (body : Option CompletedBody)
  /-- A success for a request that streams: the first events, or how they failed. -/
  | streamed (failure : Option BootstrapFailure)

structure Route where
  sourceModel : String
  account : Bool
  passthrough : Bool
  defaultTier : DefaultServiceTier

/-- What one round of the loop meets. -/
structure Round where
  scheduler : PoolScheduler
  scope : CandidateScope := {}
  nowMs : Nat
  /-- `executor_route` of the selected candidate. -/
  route : Option Route
  /-- The local continuation of the request. -/
  loaded : AdapterResult Unit := .ok ()
  /-- `prepare_request` of the adapter. -/
  prepared : AdapterResult Unit := .ok ()
  /-- The checks that are left before the request is sent. -/
  checked : AdapterResult Unit := .ok ()
  /-- The state that is stored for the response that the request continues. -/
  replay : Option NativeResponsesReplayState := none
  answer : Answer

/-- How a request ended. -/
inductive Reply
  | cooldown
  | adapterError (error : AdapterError)
  | bodyError
  | upstreamError (failure : AttemptFailure)
  | failed (failure : AttemptFailure)
  | completed
  | streaming
deriving DecidableEq, Repr

/-- `RequestExecution`. -/
structure RequestContext where
  request : Json
  tierOwner : ServiceTierOwner
  model : String
  stream : Bool
  wireApi : Scheduler.WireApi
  responseAffinityKey : Option String
  promptAffinityKey : Option String
  allowPreviousResponseReset : Bool
  attemptOffset : Nat

namespace RequestContext

def responses (context : RequestContext) : Bool := context.wireApi = .responses

def hasPreviousResponseId (context : RequestContext) : Bool :=
  context.responses && (previousResponseId context.request).isSome

end RequestContext

/-- The variables of the loop. Nothing reads the last two: `sent` has the candidate of every attempt, and
`recoveries` the candidate of every answer after which the loop tried it again. -/
structure Run where
  request : Json
  tried : Finset String := ∅
  attempt : Nat
  attemptsThisRun : Nat := 0
  ownerRecoveryConfirmed : Bool := false
  confirmedResponseMissing : Bool := false
  encryptedContentRecovered : Bool := false
  nativeReplayAttempted : Bool := false
  functionItemIdRepairAttempted : Bool := false
  customToolItemIdRepairAttempted : Bool := false
  messageItemIdRepairAttempted : Bool := false
  lastFailure : Option AttemptFailure := none
  lastAdapterError : Option AdapterError := none
  sent : List String := []
  recoveries : List String := []

/-- What a round does: the loop goes on, the request has its reply, or the loop is left. -/
inductive Control
  | next (run : Run)
  | stop (run : Run) (reply : Reply)
  | leave (run : Run)

def Control.run : Control → Run
  | .next run => run
  | .stop run _ => run
  | .leave run => run

/-! ## The loop -/

def selectionRequest (context : RequestContext) (run : Run) (round : Round) : SelectionRequest where
  model := context.model
  allowedProtocols := [context.wireApi]
  scope := round.scope
  tried := run.tried
  responseAffinityKey := context.responseAffinityKey
  promptAffinityKey := context.promptAffinityKey
  nowMs := round.nowMs

/-- `select_and_reserve`. -/
def selectAndReserve (context : RequestContext) (run : Run) (round : Round) : Option Selection :=
  let (scheduler, selection) := round.scheduler.selectFor (selectionRequest context run round) .text
  selection.filter fun selection =>
    (scheduler.reserveForLane selection.candidateId context.model round.nowMs .text).2

/-- The request is tried again on the candidate that was just asked. -/
def Run.again (run : Run) (candidateId : String) : Run :=
  { run with tried := run.tried.erase candidateId, recoveries := run.recoveries ++ [candidateId] }

def Run.failedWith (run : Run) (failure : AttemptFailure) : Run :=
  { run with lastFailure := some failure }

/-- The item-id repair that an error asks for. Each is made once. -/
def repairItemIds (run : Run) (body : ErrorBody) : Option Run :=
  (if !run.functionItemIdRepairAttempted && body.requiresFcPrefix then
    (repairCallPrefixedFunctionItemIds run.request).map fun request =>
      { run with request, functionItemIdRepairAttempted := true }
  else none).or <|
  (if !run.customToolItemIdRepairAttempted && body.requiresCtcPrefix then
    (repairCustomToolItemIds run.request).map fun request =>
      { run with request, customToolItemIdRepairAttempted := true }
  else none).or <|
  if !run.messageItemIdRepairAttempted && body.requiresMsgPrefix then
    (removeItemPrefixedMessageIds run.request).map fun request =>
      { run with request, messageItemIdRepairAttempted := true }
  else none

/-- `replay_native_tool_continuation`. -/
def replayNativeToolContinuation (replay : Option NativeResponsesReplayState) (request : Json)
    (sourceModel : String) (stream : Bool) : AdapterResult (Option Json) :=
  match previousResponseId request, replay with
  | some _, some state => (state.replayRequest request sourceModel stream).map some
  | _, _ => .ok none

/-- The recovery from encrypted content, when the failure asks for it. -/
def recoverEncrypted (context : RequestContext) (run : Run) (candidateId : String)
    (failure : AttemptFailure) : Option Run :=
  if context.responses && failure.category = "upstream_encrypted_content_invalid" then
    (tryRecoverEncryptedContent run.request run.encryptedContentRecovered).map fun request =>
      ({ run with request, encryptedContentRecovered := true }.again candidateId).failedWith failure
  else none

/-- The native replay, when `wanted`; `rest` is what happens without it. -/
def replayOr (context : RequestContext) (run : Run) (candidateId : String) (route : Route)
    (round : Round) (failure : AttemptFailure) (wanted : Bool) (rest : Control) : Control :=
  if context.responses && route.passthrough && context.hasPreviousResponseId &&
      !run.nativeReplayAttempted && wanted then
    match replayNativeToolContinuation round.replay run.request route.sourceModel context.stream with
    | .error error => .stop run (.adapterError error)
    | .ok (some request) =>
      .next (({ run with request, nativeReplayAttempted := true }.again candidateId).failedWith failure)
    | .ok none => rest
  else rest

/-- After a status that is no success. -/
def onRejected (context : RequestContext) (run : Run) (selection : Selection) (route : Route)
    (round : Round) (status : Nat) (failure : AttemptFailure) : Option ErrorBody → Control
  | none =>
    if retryableStatus status context.hasPreviousResponseId then .next (run.failedWith failure)
    else .stop run .bodyError
  | some body =>
    match if context.responses && route.passthrough then repairItemIds run body else none with
    | some run =>
      .next { run.again selection.candidateId with
        attempt := run.attempt - 1
        attemptsThisRun := run.attemptsThisRun - 1 }
    | none =>
      replayOr context run selection.candidateId route round failure
        (body.requiresWebsocket || (status = 400 && containsToolCallOutput run.request &&
          (body.invalidCallId || body.zenithInvalidRequest))) <|
      match recoverEncrypted context run selection.candidateId failure with
      | some run => .next run
      | none =>
        let affinityMiss := recoverableResponseAffinityMiss status context.hasPreviousResponseId
          body.previousResponseNotFound
        if affinityMiss || retryableFailure status failure.category context.hasPreviousResponseId then
          let run := if affinityMiss then { run with
            confirmedResponseMissing := run.confirmedResponseMissing || body.previousResponseNotFound
            ownerRecoveryConfirmed := run.ownerRecoveryConfirmed || !selection.responseAffinityHit }
          else run
          if affinityMiss && body.previousResponseNotFound && selection.responseAffinityHit then
            .leave (run.failedWith failure)
          else .next (run.failedWith failure)
        else .stop run (.upstreamError failure)

/-- After a success of a request that does not stream. -/
def onCompleted (context : RequestContext) (run : Run) (candidateId : String) (route : Route) :
    Option CompletedBody → Control
  | none => .next (run.failedWith .body)
  | some body =>
    match if route.account then body.accountFailure else none with
    | some failure =>
      match recoverEncrypted context run candidateId failure with
      | some run => .next run
      | none =>
        if failureCategoryIsRequestTerminal failure.category then .stop run (.upstreamError failure)
        else .next (run.failedWith failure)
    | none =>
      match body.translated with
      | .error error => .stop run (.adapterError error)
      | .ok () => .stop run .completed

/-- After a success of a request that streams. -/
def onStreamed (context : RequestContext) (run : Run) (candidateId : String) (route : Route)
    (round : Round) : Option BootstrapFailure → Control
  | none => .stop run .streaming
  | some bootstrap =>
    replayOr context run candidateId route round bootstrap.failure
      (containsToolCallOutput run.request && bootstrap.zenithInvalidRequest) <|
    match recoverEncrypted context run candidateId bootstrap.failure with
    | some run => .next run
    | none =>
      if failureCategoryIsRequestTerminal bootstrap.failure.category then
        .stop run (.upstreamError bootstrap.failure)
      else .next (run.failedWith bootstrap.failure)

/-- After the attempt was counted. -/
def onAnswer (context : RequestContext) (run : Run) (selection : Selection) (route : Route)
    (round : Round) : Control :=
  match round.answer with
  | .unsent failure => .next (run.failedWith failure)
  | .rejected status failure body => onRejected context run selection route round status failure body
  | .completed body => onCompleted context run selection.candidateId route body
  | .streamed failure => onStreamed context run selection.candidateId route round failure

def Run.attempted (run : Run) (candidateId : String) : Run :=
  { run with
    attempt := satAdd 16 run.attempt 1
    attemptsThisRun := satAdd 64 run.attemptsThisRun 1
    sent := run.sent ++ [candidateId] }

/-- The selected candidate: its route, the request for it, and the attempt. -/
def onSelected (context : RequestContext) (run : Run) (selection : Selection) (round : Round) : Control :=
  match round.route with
  | none => .next run
  | some route =>
    let request := prepareForCandidate context.tierOwner run.request route.defaultTier
      (context.wireApi = .messages)
    let run := { run with request }
    match round.loaded, round.prepared, round.checked with
    | .error error, _, _ => .stop run (.adapterError error)
    | .ok (), .error error, _ =>
      if error.isRouteIncompatible then .next { run with lastAdapterError := some error }
      else .stop run (.adapterError error)
    | .ok (), .ok (), .error error => .stop run (.adapterError error)
    | .ok (), .ok (), .ok () =>
      onAnswer context (run.attempted selection.candidateId) selection route round

/-- No candidate was selected. -/
def onNothing (context : RequestContext) (run : Run) (round : Round) : Control :=
  if run.attempt = 0 ∧
      (round.scheduler.allApplicableCooldown (selectionRequest context run round)).2.isSome then
    .stop run .cooldown
  else
    match run.lastFailure, run.lastAdapterError with
    | none, some error => .stop run (.adapterError error)
    | _, _ => .leave run

/-- One round of the loop. -/
def iterate (context : RequestContext) (run : Run) (round : Round) : Control :=
  match selectAndReserve context run round with
  | none => onNothing context run round
  | some selection =>
    onSelected context { run with tried := insert selection.candidateId run.tried } selection round

/-- The attempts that the loop may count. -/
def Run.limit (options : RetryOptions) (run : Run) : Nat :=
  retryCandidateLimit options.maxRetryCandidates run.ownerRecoveryConfirmed +
    run.encryptedContentRecovered.toNat + run.nativeReplayAttempted.toNat

/-- The loop: the variables at its end, the rounds it took, and the reply if a round gave one. `fuel`
bounds the rounds. -/
def loop (options : RetryOptions) (context : RequestContext) (rounds : Nat → Round) :
    Nat → Nat → Run → Option (Run × Nat × Option Reply)
  | 0, _, _ => none
  | fuel + 1, n, run =>
    if run.attemptsThisRun < run.limit options then
      match iterate context run (rounds n) with
      | .next run => loop options context rounds fuel (n + 1) run
      | .stop run reply => some (run, n + 1, some reply)
      | .leave run => some (run, n + 1, none)
    else some (run, n, none)

/-- The reply after the loop. -/
def afterLoop (context : RequestContext) (run : Run) (round : Round) : Reply :=
  match run.lastFailure, run.lastAdapterError with
  | none, some error => .adapterError error
  | lastFailure, _ =>
    let failure := lastFailure.getD .noCandidate
    let everyone := { selectionRequest context run round with tried := ∅ }
    if failure.status = 429 ∧ (round.scheduler.allApplicableCooldown everyone).2.isSome then .cooldown
    else .failed failure

/-- The loops of a request, and its reply. -/
structure Executed where
  runs : List Run
  reply : Reply

/-- The run that starts over without the response that the upstream does not know. -/
def resetContext (context : RequestContext) (run : Run) (object : Json.Fields) : RequestContext :=
  { context with
    request := .object (object.remove "previous_response_id")
    responseAffinityKey := none
    allowPreviousResponseReset := false
    attemptOffset := run.attempt }

def executeRequest (options : RetryOptions) (rounds : Nat → Round) :
    Nat → Nat → RequestContext → Option Executed
  | 0, _, _ => none
  | fuel + 1, n, context => do
    let (run, n, reply) ← loop options context rounds fuel n
      { request := context.request, attempt := context.attemptOffset }
    match reply with
    | some reply => return ⟨[run], reply⟩
    | none =>
      match run.request.asObject with
      | some object =>
        if context.allowPreviousResponseReset && context.hasPreviousResponseId &&
            run.confirmedResponseMissing && !containsToolCallOutput run.request then
          let nested ← executeRequest options rounds fuel n (resetContext context run object)
          return ⟨run :: nested.runs, nested.reply⟩
        else return ⟨[run], afterLoop context run (rounds n)⟩
      | none => return ⟨[run], afterLoop context run (rounds n)⟩

end Zenith.Gateway
