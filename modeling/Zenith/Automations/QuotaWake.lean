import Mathlib
import Zenith.Accounts.Record
import Zenith.Lib.Bytes
import Zenith.Lib.Comparators
import Zenith.Lib.Tables
import Zenith.Lib.Text

/-!
# The wake coordinator

The wake automation of `automations/quota_wake.rs`: a quota window that became full is started by
one small request, at most `max_attempts` times. A `WakeCycle` stands for one full window of one
account; it is pending until it is due, in flight while a `WakePermit` is out, and completed when
it was confirmed, used up its attempts, was cancelled, or the account was used by its owner.

Every function is the source's function of the same name. Times are `u64` milliseconds. The
SHA-256 digest is a parameter; serialising the state and reading it back is the identity.
-/

namespace Zenith.Automations

open Zenith.Accounts Zenith.Quota Zenith.Tables Zenith.Text Zenith.Bytes

def maxWakeAttempts : Nat := 2

def maxWakeJitterSeconds : Nat := 3600

def maxVerificationDelayMs : Nat := 10 * 60000

def maxOutputTokenCap : Nat := 256

/-- Identifiers of tasks: at most 64 ASCII letters, digits, `-` and `_`. -/
def isSafeId (value : String) : Bool :=
  let value := trim value
  value ≠ "" && value.utf8ByteSize ≤ 64 &&
    value.toList.all fun c => c.isAlphanum || c = '-' || c = '_'

def validErrorCode (value : String) : Bool :=
  value ≠ "" && value.utf8ByteSize ≤ 64 &&
    value.toList.all fun c => c.isAlphanum || c = '-' || c = '_' || c = '.'

def safeErrorCode (value : String) : String :=
  if validErrorCode (trim value) then trim value else "redacted"

/-! ## Tasks and policies -/

inductive AccountSelector
  | allEligible
  | accountIds (ids : Finset String)
  | tags (wanted : Finset String)
deriving DecidableEq

def AccountSelector.matches (account : AccountRecord) : AccountSelector → Bool
  | .allEligible => true
  | .accountIds ids => account.id ∈ ids
  | .tags wanted => (wanted ∩ account.tags).Nonempty

def AccountSelector.isValid : AccountSelector → Bool
  | .allEligible => true
  | .accountIds ids => ids ≠ ∅
  | .tags wanted => wanted ≠ ∅

inductive WakeModelPolicy
  | lightestSupported
  | explicit (id : String)
deriving DecidableEq, Repr

inductive WakeTrigger
  | quotaFull
  | daily
  | weekly
  | interval (seconds : Nat)
deriving DecidableEq, Repr

inductive WakeExecutionPolicy
  | automatic
  | requireConfirmation
deriving DecidableEq, Repr

structure WakeTask where
  id : String
  name : String
  enabled : Bool
  accountSelector : AccountSelector
  windowKinds : Finset QuotaWindowKind
  modelPolicy : WakeModelPolicy
  trigger : WakeTrigger
  fallbackSchedule : Option WakeTrigger
  executionPolicy : WakeExecutionPolicy
  jitterSeconds : Nat
  maxAttemptsPerCycle : Nat

inductive WakeTaskValidationError
  | invalidId
  | invalidName
  | unsupportedSchedule
  | invalidAccountSelector
  | invalidWindowSelection
  | invalidModelPolicy
  | invalidAttemptLimit
  | invalidJitter
  | invalidAdapterPolicy
deriving DecidableEq, Repr

def WakeModelPolicy.isBlank : WakeModelPolicy → Bool
  | .lightestSupported => false
  | .explicit id => trim id = ""

def WakeTask.validate (task : WakeTask) : Except WakeTaskValidationError Unit :=
  if !isSafeId task.id then .error .invalidId
  else if trim task.name = "" then .error .invalidName
  else if task.fallbackSchedule.isSome || !(task.trigger = .quotaFull || task.trigger = .weekly) then
    .error .unsupportedSchedule
  else if !task.accountSelector.isValid then .error .invalidAccountSelector
  else if task.windowKinds = ∅ then .error .invalidWindowSelection
  else if task.trigger = .weekly &&
      (task.windowKinds ≠ {.secondary} || task.executionPolicy ≠ .automatic) then
    .error .unsupportedSchedule
  else if task.modelPolicy.isBlank then .error .invalidModelPolicy
  else if !(1 ≤ task.maxAttemptsPerCycle && task.maxAttemptsPerCycle ≤ maxWakeAttempts) then
    .error .invalidAttemptLimit
  else if maxWakeJitterSeconds < task.jitterSeconds then .error .invalidJitter
  else .ok ()

structure WakeModel where
  id : String
  lightnessRank : Nat
  wakeCapable : Bool
deriving DecidableEq, Repr

structure WakeAdapterPolicy where
  windowsRequiringActivity : Finset QuotaWindowKind
  models : List WakeModel
  verificationDelayMs : Nat
  outputTokenCap : Nat

def WakeAdapterPolicy.isValid (policy : WakeAdapterPolicy) : Bool :=
  policy.verificationDelayMs ≤ maxVerificationDelayMs &&
    1 ≤ policy.outputTokenCap && policy.outputTokenCap ≤ maxOutputTokenCap

def selectModel (policy : WakeModelPolicy) (models : List WakeModel) : Option String :=
  match policy with
  | .lightestSupported =>
    let capable := models.filter fun model => model.wakeCapable && trim model.id ≠ ""
    (Comparators.minBy? (fun left right =>
      (compare left.lightnessRank right.lightnessRank).then (compare left.id right.id))
      capable).map (·.id)
  | .explicit id =>
    (models.find? fun model => model.wakeCapable && eqIgnoreAsciiCase model.id (trim id)).map (·.id)

/-! ## Cycles, permits and history -/

inductive WakeOutcome
  | confirmed
  | unconfirmed
  | skippedAlreadyStarted
  | skippedDuplicate
  | skippedIneligible
  | skippedCapacity
  | failed
deriving DecidableEq, Repr

structure WakeHistory where
  taskId : String
  accountId : String
  windowKind : QuotaWindowKind
  transitionFingerprint : String
  modelId : Option String
  trigger : WakeTrigger
  attempt : Nat
  outcome : WakeOutcome
  startedAtMs : Nat
  completedAtMs : Nat
  latencyMs : Option Nat
  inputTokens : Option Nat
  outputTokens : Option Nat
  errorCode : Option String
deriving DecidableEq, Repr

structure WakeExecutionRequest where
  accountId : String
  modelId : String
  windowKind : QuotaWindowKind
  outputTokenCap : Nat
deriving DecidableEq, Repr

structure WakeVerificationMetadata where
  windowKind : QuotaWindowKind
  baselineWindow : Option QuotaWindow
  verifyAfterMs : Nat
deriving DecidableEq, Repr

inductive WakeCycleStatus
  | pending
  | inFlight
  | completed
deriving DecidableEq, Repr

/-- One full window of one account, to be started by at most `maxAttempts` requests. -/
structure WakeCycle where
  key : String
  status : WakeCycleStatus
  taskId : String
  accountId : String
  windowKind : QuotaWindowKind
  transitionFingerprint : String
  trigger : WakeTrigger
  requiresConfirmation : Bool
  request : Option WakeExecutionRequest
  verification : Option WakeVerificationMetadata
  jitterSeconds : Nat
  maxAttempts : Nat
  attemptsStarted : Nat
  dueAtMs : Nat
  recordedAtMs : Nat
deriving DecidableEq, Repr

structure WakeSchedule where
  cycleKey : String
  dueAtMs : Nat
  attemptsStarted : Nat
  maxAttempts : Nat
  request : WakeExecutionRequest
deriving DecidableEq, Repr

/-- The right to make one attempt for a cycle. -/
structure WakePermit where
  cycleKey : String
  taskId : String
  accountId : String
  windowKind : QuotaWindowKind
  transitionFingerprint : String
  modelId : String
  trigger : WakeTrigger
  requiresConfirmation : Bool
  verificationDelayMs : Nat
  outputTokenCap : Nat
  attempt : Nat
  dueAtMs : Nat
  reservedAtMs : Nat
  request : WakeExecutionRequest
  verification : WakeVerificationMetadata
deriving DecidableEq, Repr

inductive WakeCompletionOutcome
  | confirmed
  | unconfirmed
  | failed
deriving DecidableEq, Repr

structure WakeCompletion where
  outcome : WakeCompletionOutcome
  completedAtMs : Nat
  latencyMs : Option Nat := none
  inputTokens : Option Nat := none
  outputTokens : Option Nat := none
  errorCode : Option String := none
deriving DecidableEq, Repr

inductive WakeDecision
  | scheduled (schedule : WakeSchedule)
  | skipped (outcome : WakeOutcome)
  | rejected (error : WakeTaskValidationError)
deriving DecidableEq, Repr

/-- Which cycles a claim considers. -/
inductive WakeClaimMode
  | any
  | automatic
  | confirmation
deriving DecidableEq, Repr

def WakeClaimMode.matches (cycle : WakeCycle) : WakeClaimMode → Bool
  | .any => true
  | .automatic => !cycle.requiresConfirmation
  | .confirmation => cycle.requiresConfirmation

structure WakeAutomationState where
  maxCycles : Nat
  maxHistory : Nat
  cycles : List WakeCycle := []
  history : List WakeHistory := []
deriving DecidableEq, Repr

namespace WakeCycle

variable (cycle : WakeCycle)

def schedule : Option WakeSchedule :=
  if cycle.status ≠ .pending then none
  else cycle.request.map fun request =>
    { cycleKey := cycle.key
      dueAtMs := cycle.dueAtMs
      attemptsStarted := cycle.attemptsStarted
      maxAttempts := cycle.maxAttempts
      request }

def finish (nowMs : Nat) : WakeCycle :=
  { cycle with status := .completed, request := none, verification := none, recordedAtMs := nowMs }

def valid : Bool :=
  cycle.key ≠ "" && isSafeId cycle.taskId && trim cycle.accountId ≠ "" &&
    trim cycle.transitionFingerprint ≠ "" &&
    1 ≤ cycle.maxAttempts && cycle.maxAttempts ≤ maxWakeAttempts &&
    cycle.attemptsStarted ≤ cycle.maxAttempts && cycle.jitterSeconds ≤ maxWakeJitterSeconds &&
    (cycle.status = .completed || (cycle.request.isSome && cycle.verification.isSome))

def same (accountId : String) (windowKind : QuotaWindowKind) (fingerprint : String) : Bool :=
  cycle.accountId = accountId && cycle.windowKind = windowKind &&
    cycle.transitionFingerprint = fingerprint

def naturalUseHistory (usedAtMs : Nat) : WakeHistory :=
  { taskId := cycle.taskId
    accountId := cycle.accountId
    windowKind := cycle.windowKind
    transitionFingerprint := cycle.transitionFingerprint
    modelId := none
    trigger := cycle.trigger
    attempt := cycle.attemptsStarted
    outcome := .skippedAlreadyStarted
    startedAtMs := usedAtMs
    completedAtMs := usedAtMs
    latencyMs := none
    inputTokens := none
    outputTokens := none
    errorCode := none }

def canceledHistory (completedAtMs : Nat) (errorCode : String) : WakeHistory :=
  { taskId := cycle.taskId
    accountId := cycle.accountId
    windowKind := cycle.windowKind
    transitionFingerprint := cycle.transitionFingerprint
    modelId := none
    trigger := cycle.trigger
    attempt := cycle.attemptsStarted
    outcome := .skippedIneligible
    startedAtMs := cycle.recordedAtMs
    completedAtMs := max completedAtMs cycle.recordedAtMs
    latencyMs := none
    inputTokens := none
    outputTokens := none
    errorCode := some (safeErrorCode errorCode) }

/-- The permit a pending, due cycle gives, and the cycle it leaves in flight. -/
def claim? (nowMs : Nat) (mode : WakeClaimMode) : Option (WakeCycle × WakePermit) :=
  if cycle.status ≠ .pending || nowMs < cycle.dueAtMs || cycle.maxAttempts ≤ cycle.attemptsStarted
      || !mode.matches cycle then none
  else
    match cycle.request, cycle.verification with
    | some request, some verification =>
      let attempt := satAdd 8 cycle.attemptsStarted 1
      some ({ cycle with status := .inFlight, attemptsStarted := attempt, recordedAtMs := nowMs },
        { cycleKey := cycle.key
          taskId := cycle.taskId
          accountId := cycle.accountId
          windowKind := cycle.windowKind
          transitionFingerprint := cycle.transitionFingerprint
          modelId := request.modelId
          trigger := cycle.trigger
          requiresConfirmation := cycle.requiresConfirmation
          verificationDelayMs := verification.verifyAfterMs
          outputTokenCap := request.outputTokenCap
          attempt := attempt
          dueAtMs := cycle.dueAtMs
          reservedAtMs := nowMs
          request
          verification })
    | _, _ => none

/-- The cycle `complete` looks for: in flight under the permit's key, at the permit's attempt. -/
def awaits (permit : WakePermit) : Bool :=
  cycle.key = permit.cycleKey && cycle.status = .inFlight && cycle.attemptsStarted = permit.attempt

end WakeCycle

/-! ## The coordinator -/

section Coordinator

variable (sha256 : List UInt8 → List UInt8)

def windowKindName : QuotaWindowKind → String
  | .primary => "Primary"
  | .secondary => "Secondary"

def cycleKey (account : AccountRecord) (transition : QuotaTransition) : String :=
  hexEncode (sha256 (utf8 (account.id ++ "\x00" ++ windowKindName transition.windowKind ++ "\x00" ++
    transition.fingerprint)))

def deterministicJitterMs (cycleKey : String) (attempt jitterSeconds : Nat) : Nat :=
  if jitterSeconds = 0 then 0
  else
    let digest := sha256 (utf8 (cycleKey ++ "\x00" ++ toString attempt))
    min (u64OfLeBytes digest % (jitterSeconds + 1) * 1000) (2 ^ 64 - 1)

/-- When the next attempt of a cycle is due, counted from the end of the last one. -/
def WakeCycle.retryAtMs (cycle : WakeCycle) (fromMs : Nat) : Nat :=
  satAdd 64 fromMs
    (deterministicJitterMs sha256 cycle.key (satAdd 8 cycle.attemptsStarted 1) cycle.jitterSeconds)

/-- What a restart makes of a cycle: one that was in flight may be tried again, or is over. -/
def WakeCycle.recover (cycle : WakeCycle) : WakeCycle :=
  if cycle.status = .inFlight then
    if cycle.attemptsStarted < cycle.maxAttempts then
      { cycle with status := .pending, dueAtMs := cycle.retryAtMs sha256 cycle.recordedAtMs }
    else cycle.finish cycle.recordedAtMs
  else cycle

/-- What the end of an attempt makes of its cycle. -/
def WakeCycle.settle (cycle : WakeCycle) (outcome : WakeCompletionOutcome) (completedAtMs : Nat) :
    WakeCycle :=
  if outcome = .confirmed || cycle.maxAttempts ≤ cycle.attemptsStarted then
    cycle.finish completedAtMs
  else
    { cycle with
      status := .pending
      dueAtMs := cycle.retryAtMs sha256 completedAtMs
      recordedAtMs := completedAtMs }

namespace WakeAutomationState

variable (state : WakeAutomationState)

def new (maxCycles maxHistory : Nat) : Except String WakeAutomationState :=
  if maxCycles = 0 || maxHistory = 0 then .error "wake state bounds must be positive"
  else .ok { maxCycles, maxHistory }

def pushHistory (entry : WakeHistory) : WakeAutomationState :=
  let kept := if state.maxHistory ≤ state.history.length then state.history.tail else state.history
  { state with history := kept ++ [entry] }

def pushHistories (entries : List WakeHistory) : WakeAutomationState :=
  entries.foldl pushHistory state

/-- A new cycle goes to the end. When there is no room the oldest completed cycle makes room;
without one the new cycle is refused. -/
def reserveCycle (cycle : WakeCycle) : Option WakeAutomationState :=
  if state.maxCycles ≤ state.cycles.length then
    if state.cycles.any fun cycle => cycle.status = .completed then
      some { state with
        cycles := state.cycles.eraseP (fun cycle => cycle.status = .completed) ++ [cycle] }
    else none
  else some { state with cycles := state.cycles ++ [cycle] }

/-- Finishes the open cycles that match, each with the history entry `entry` writes. -/
def finishMatching (matching : WakeCycle → Bool) (entry : WakeCycle → WakeHistory) (atMs : Nat) :
    WakeAutomationState × Nat :=
  let open? := fun cycle : WakeCycle => cycle.status ≠ .completed && matching cycle
  let entries := (state.cycles.filter open?).map entry
  let cycles := state.cycles.map fun cycle => if open? cycle then cycle.finish atMs else cycle
  ({ state with cycles }.pushHistories entries, entries.length)

def cancelMatching (matching : WakeCycle → Bool) (completedAtMs : Nat) (errorCode : String) :
    WakeAutomationState × Nat :=
  state.finishMatching matching (·.canceledHistory completedAtMs errorCode) completedAtMs

def removePendingForTask (taskId : String) (completedAtMs : Nat) : WakeAutomationState × Nat :=
  state.cancelMatching (·.taskId = taskId) completedAtMs "wake_task_canceled"

def removePendingForAccount (accountId : String) (completedAtMs : Nat) :
    WakeAutomationState × Nat :=
  state.cancelMatching (·.accountId = accountId) completedAtMs "wake_account_canceled"

def markNaturalUseForAccount (accountId : String) (usedAtMs : Nat) : WakeAutomationState × Nat :=
  state.finishMatching (·.accountId = accountId) (·.naturalUseHistory usedAtMs) usedAtMs

/-- A saved state with no cycle in flight and with safe error codes. -/
def recovered : WakeAutomationState :=
  { state with
    cycles := state.cycles.map (·.recover sha256)
    history := state.history.map fun entry =>
      { entry with errorCode := entry.errorCode.map safeErrorCode } }

/-- The coordinator of a saved state, after a restart of the process. -/
def fromState : Except String WakeAutomationState :=
  if state.maxCycles = 0 || state.maxHistory = 0 || state.maxCycles < state.cycles.length ||
      state.maxHistory < state.history.length || state.cycles.any (!·.valid) then
    .error "wake state bounds are invalid"
  else
    .ok ((state.recovered sha256).cancelMatching (fun cycle => cycle.windowKind ≠ .primary) 0
      "wake_window_redundant").1

def isPermitActive (permit : WakePermit) : Bool :=
  state.cycles.any fun cycle =>
    cycle.awaits permit && cycle.taskId = permit.taskId &&
      cycle.same permit.accountId permit.windowKind permit.transitionFingerprint

/-- The permits of the cycles that are due, oldest cycle first, at most `maxClaims` of them. -/
def claimDueMatching (nowMs maxClaims : Nat) (mode : WakeClaimMode) :
    WakeAutomationState × List WakePermit :=
  let (cycles, permits) := claimLoop maxClaims state.cycles
  ({ state with cycles }, permits)
where
  claimLoop : Nat → List WakeCycle → List WakeCycle × List WakePermit
    | 0, cycles => (cycles, [])
    | _, [] => ([], [])
    | budget + 1, cycle :: cycles =>
      match cycle.claim? nowMs mode with
      | none =>
        let (cycles, permits) := claimLoop (budget + 1) cycles
        (cycle :: cycles, permits)
      | some (cycle, permit) =>
        let (cycles, permits) := claimLoop budget cycles
        (cycle :: cycles, permit :: permits)

/-- The cycles with the first one that `found` replaced. -/
def replaceFirst (found : WakeCycle → Bool) (f : WakeCycle → WakeCycle) :
    List WakeCycle → List WakeCycle
  | [] => []
  | cycle :: cycles =>
    if found cycle then f cycle :: cycles else cycle :: replaceFirst found f cycles

/-- Ends the attempt of a permit. The cycle is found by key, status and attempt only. -/
def complete (permit : WakePermit) (completion : WakeCompletion) : WakeAutomationState × Bool :=
  match state.cycles.find? (·.awaits permit) with
  | none => (state, false)
  | some cycle =>
    let completedAtMs := max completion.completedAtMs permit.reservedAtMs
    let outcome := match completion.outcome with
      | .confirmed => WakeOutcome.confirmed
      | .unconfirmed => .unconfirmed
      | .failed => .failed
    let entry : WakeHistory :=
      { taskId := cycle.taskId
        accountId := cycle.accountId
        windowKind := cycle.windowKind
        transitionFingerprint := cycle.transitionFingerprint
        modelId := cycle.request.map (·.modelId)
        trigger := cycle.trigger
        attempt := permit.attempt
        outcome
        startedAtMs := permit.reservedAtMs
        completedAtMs
        latencyMs := completion.latencyMs
        inputTokens := completion.inputTokens
        outputTokens := completion.outputTokens
        errorCode := completion.errorCode.map safeErrorCode }
    let cycles := replaceFirst (·.awaits permit)
      (·.settle sha256 completion.outcome completedAtMs) state.cycles
    ({ state with cycles }.pushHistory entry, true)

/-- The owner has used the account since the window became full: its cycle is over, or is recorded
as over when there was none. -/
def completeByNaturalUse (task : WakeTask) (account : AccountRecord) (transition : QuotaTransition)
    (cycleKey : String) (nowMs : Nat) : WakeAutomationState × WakeDecision :=
  let found := fun cycle : WakeCycle =>
    cycle.same account.id transition.windowKind transition.fingerprint
  match state.cycles.find? found with
  | some cycle =>
    if cycle.status = .completed then (state, .skipped .skippedDuplicate)
    else
      let cycles := replaceFirst found (·.finish nowMs) state.cycles
      ({ state with cycles }.pushHistory (cycle.naturalUseHistory nowMs),
        .skipped .skippedAlreadyStarted)
  | none =>
    let cycle : WakeCycle :=
      { key := cycleKey
        status := .completed
        taskId := task.id
        accountId := account.id
        windowKind := transition.windowKind
        transitionFingerprint := transition.fingerprint
        trigger := task.trigger
        requiresConfirmation := false
        request := none
        verification := none
        jitterSeconds := task.jitterSeconds
        maxAttempts := task.maxAttemptsPerCycle
        attemptsStarted := 0
        dueAtMs := nowMs
        recordedAtMs := nowMs }
    match state.reserveCycle cycle with
    | none => (state, .skipped .skippedCapacity)
    | some state =>
      (state.pushHistory (cycle.naturalUseHistory nowMs), .skipped .skippedAlreadyStarted)

/-- The account, the task and the transition allow a wake. -/
def wakeAllowed (task : WakeTask) (account : AccountRecord) (transition : QuotaTransition)
    (policy : WakeAdapterPolicy) : Bool :=
  task.enabled && account.authMode = .oauth && task.accountSelector.matches account &&
    task.trigger = .quotaFull && transition.windowKind = .primary &&
    QuotaWindowKind.primary ∈ task.windowKinds && trim transition.fingerprint ≠ "" &&
    account.isWakeEligible && transition.windowKind ∈ policy.windowsRequiringActivity

/-- Decides whether a full window is to be started, and schedules the cycle for it. -/
def evaluate (task : WakeTask) (account : AccountRecord) (transition : QuotaTransition)
    (lastNaturalUseAtMs : Option Nat) (policy : WakeAdapterPolicy) (nowMs : Nat) :
    WakeAutomationState × WakeDecision :=
  match task.validate with
  | .error error => (state, .rejected error)
  | .ok () =>
    if !policy.isValid then (state, .rejected .invalidAdapterPolicy)
    else if !wakeAllowed task account transition policy then (state, .skipped .skippedIneligible)
    else
      let key := cycleKey sha256 account transition
      if lastNaturalUseAtMs.any (transition.transitionedAtMs ≤ ·) then
        state.completeByNaturalUse task account transition key nowMs
      else if state.cycles.any (·.same account.id transition.windowKind transition.fingerprint) then
        (state, .skipped .skippedDuplicate)
      else
        match selectModel task.modelPolicy policy.models with
        | none => (state, .skipped .skippedIneligible)
        | some modelId =>
          let request : WakeExecutionRequest :=
            { accountId := account.id
              modelId
              windowKind := transition.windowKind
              outputTokenCap := policy.outputTokenCap }
          let verification : WakeVerificationMetadata :=
            { windowKind := transition.windowKind
              baselineWindow := account.quota.window transition.windowKind
              verifyAfterMs := policy.verificationDelayMs }
          let dueAtMs := satAdd 64 nowMs (deterministicJitterMs sha256 key 1 task.jitterSeconds)
          let cycle : WakeCycle :=
            { key
              status := .pending
              taskId := task.id
              accountId := account.id
              windowKind := transition.windowKind
              transitionFingerprint := transition.fingerprint
              trigger := task.trigger
              requiresConfirmation := task.executionPolicy = .requireConfirmation
              request := some request
              verification := some verification
              jitterSeconds := task.jitterSeconds
              maxAttempts := task.maxAttemptsPerCycle
              attemptsStarted := 0
              dueAtMs
              recordedAtMs := nowMs }
          match state.reserveCycle cycle with
          | none => (state, .skipped .skippedCapacity)
          | some state =>
            (state, .scheduled
              { cycleKey := key
                dueAtMs
                attemptsStarted := 0
                maxAttempts := task.maxAttemptsPerCycle
                request })

end WakeAutomationState

/-! ## Operations -/

/-- A call of the coordinator, or a restart of the process that owns it. -/
inductive WakeOp
  | evaluate (task : WakeTask) (account : AccountRecord) (transition : QuotaTransition)
      (lastNaturalUseAtMs : Option Nat) (policy : WakeAdapterPolicy) (nowMs : Nat)
  | claimDue (nowMs maxClaims : Nat)
  | claimDueAutomatic (nowMs maxClaims : Nat)
  | claimDueConfirmations (nowMs maxClaims : Nat)
  | complete (permit : WakePermit) (completion : WakeCompletion)
  | removePendingForTask (taskId : String) (completedAtMs : Nat)
  | removePendingForAccount (accountId : String) (completedAtMs : Nat)
  | markNaturalUseForAccount (accountId : String) (usedAtMs : Nat)
  | restart

inductive WakeAnswer
  | decision (decision : WakeDecision)
  | permits (given : List WakePermit)
  | settled (found : Bool)
  | finished (count : Nat)
  | restarted (error : Option String)
deriving DecidableEq, Repr

def WakeAnswer.issued : WakeAnswer → List WakePermit
  | .permits given => given
  | _ => []

/-- One operation. A restart that refuses the saved state leaves it as it is. -/
def WakeOp.step (state : WakeAutomationState) : WakeOp → WakeAutomationState × WakeAnswer
  | .evaluate task account transition lastNaturalUseAtMs policy nowMs =>
    Prod.map id .decision
      (state.evaluate sha256 task account transition lastNaturalUseAtMs policy nowMs)
  | .claimDue nowMs maxClaims =>
    Prod.map id .permits (state.claimDueMatching nowMs maxClaims .any)
  | .claimDueAutomatic nowMs maxClaims =>
    Prod.map id .permits (state.claimDueMatching nowMs maxClaims .automatic)
  | .claimDueConfirmations nowMs maxClaims =>
    Prod.map id .permits (state.claimDueMatching nowMs maxClaims .confirmation)
  | .complete permit completion =>
    Prod.map id .settled (state.complete sha256 permit completion)
  | .removePendingForTask taskId completedAtMs =>
    Prod.map id .finished (state.removePendingForTask taskId completedAtMs)
  | .removePendingForAccount accountId completedAtMs =>
    Prod.map id .finished (state.removePendingForAccount accountId completedAtMs)
  | .markNaturalUseForAccount accountId usedAtMs =>
    Prod.map id .finished (state.markNaturalUseForAccount accountId usedAtMs)
  | .restart =>
    match state.fromState sha256 with
    | .ok state => (state, .restarted none)
    | .error error => (state, .restarted (some error))

end Coordinator

end Zenith.Automations
