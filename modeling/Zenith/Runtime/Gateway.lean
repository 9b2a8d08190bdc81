import Zenith.Quota.Windows
import Zenith.Scheduler.Leases

/-!
# The gateway runtime

`runtime.rs` and `runtime/candidates.rs`: the part of `GatewayRuntime` that owns candidates. The
runtime holds the scheduler behind a lock, the executors of the OAuth accounts, the quota that was
last seen in response headers, and the table that says which source a candidate belongs to. Leases
and execution fences are handed out to requests and act on the scheduler when they are dropped;
the ones that are out are part of the state.

A method is one step. Methods that only pass calls on to the scheduler (availability, health,
quota, capability blocks, affinity, usage events, the team breaker) are `RuntimeOp.calls` with the
calls they make.
-/

namespace Zenith.Runtime

open Std Zenith.Text Zenith.Tables Zenith.Quota Zenith.Scheduler

/-! ## Data -/

structure RuntimeCandidatePolicy where
  enabled : Bool := true
  draining : Bool := false
  priority : Int := 0
  weight : Nat := 1
  allowedModels : List String := []
  excludedModels : List String := []

structure RuntimeSourcePolicyUpdate where
  sourceId : String
  policy : RuntimeCandidatePolicy
  recoveryDelaySeconds : Nat := 0

structure AgentIdentityCredential where
  privateKey : String
  runtimeId : String
  taskId : Option String
deriving DecidableEq, Repr

/-- The part of an account's executor that changes. -/
structure ChatGptAccountExecutor where
  active : Bool := true
  agentIdentity : Option AgentIdentityCredential := none
deriving DecidableEq, Repr

structure PassiveQuotaState where
  snapshot : QuotaSnapshot
  dirty : Bool := false
  forcePersist : Bool := false
  lastPersistHintMs : Nat := 0
deriving DecidableEq, Repr

structure GatewayRuntime where
  /-- The scheduler, and the leases that are out. -/
  pool : LeasedPool := {}
  /-- The candidates of the execution fences that are out. -/
  fences : List String := []
  /-- The source of each source candidate. -/
  sourceCandidateBindings : Table String String := ∅
  sourceRecoveryDelaysMs : Table String Nat := ∅
  chatgptAccounts : Table String ChatGptAccountExecutor := ∅
  passiveQuotas : Table String PassiveQuotaState := ∅
  quotaStaleAfterMs : Nat := 0

/-! ## Policies -/

/-- The trimmed, non-empty values, one spelling for each lower-cased value: the first. -/
def normalizedSet (values : List String) : Finset String :=
  let normalized : Table String String := values.foldl (fun normalized value =>
    let value := trim value
    if value = "" || normalized.contains (asciiLower value) then normalized
    else normalized.insert (asciiLower value) value) ∅
  (valuesOf normalized).toFinset

def modelRules (allowed excluded : List String) : ModelRules :=
  { allowed := normalizedSet allowed, excluded := normalizedSet excluded }

def applyCandidatePolicy (candidate : RuntimeCandidate) (policy : RuntimeCandidatePolicy)
    (rules : ModelRules) : RuntimeCandidate :=
  { candidate with
    enabled := policy.enabled
    draining := policy.draining
    priority := policy.priority
    weight := policy.weight
    modelRules := rules }

namespace GatewayRuntime

variable (r : GatewayRuntime)

abbrev scheduler : PoolScheduler := r.pool.scheduler

/-- A call into the scheduler, made under its lock. -/
def call (op : LeaseOp) : GatewayRuntime := { r with pool := op.step r.pool }

/-- The candidates of one source with the new policy, each with its id and recovery delay. Every
candidate bound to the source has to be there as a candidate of that source. -/
def stageSource (update : RuntimeSourcePolicyUpdate) :
    Option (List (String × RuntimeCandidate × Nat)) :=
  let rules := Runtime.modelRules update.policy.allowedModels update.policy.excludedModels
  let bound := r.sourceCandidateBindings.toList.filter fun item => item.2 = update.sourceId
  if bound = [] then none
  else
    bound.mapM fun item =>
      match r.scheduler.candidates.get? item.1 with
      | none => none
      | some candidate =>
        if candidate.kind ≠ .apiSource || candidate.sourceId ≠ update.sourceId then none
        else some (item.1, applyCandidatePolicy candidate update.policy rules,
          update.recoveryDelaySeconds)

/-- What a list of source policies writes; `none` when one of them is refused. -/
def stageSources (updates : List RuntimeSourcePolicyUpdate) :
    Option (List (String × RuntimeCandidate × Nat)) :=
  if updates.any fun update =>
      update.policy.weight = 0 || decide (24 * 60 * 60 < update.recoveryDelaySeconds) then none
  else if ¬ (updates.map (·.sourceId)).Nodup then none
  else (updates.mapM r.stageSource).map List.flatten

def setRecoveryDelay (delays : Table String Nat) (candidateId : String) (seconds : Nat) :
    Table String Nat :=
  if seconds = 0 then delays.erase candidateId
  else delays.insert candidateId (min (seconds * 1000) (2 ^ 64 - 1))

/-- Several source policies as one scheduler update: all candidates are read before the first is
written. -/
def updateSourcePolicies (updates : List RuntimeSourcePolicyUpdate) : GatewayRuntime × Bool :=
  match r.stageSources updates with
  | none => (r, false)
  | some staged =>
    ({ staged.foldl (fun r item => r.call (.pool (.upsert item.2.1))) r with
        sourceRecoveryDelaysMs := staged.foldl (fun delays item =>
          setRecoveryDelay delays item.1 item.2.2) r.sourceRecoveryDelaysMs }, true)

/-- The account's candidate with the new policy; `none` when the update is refused. -/
def stageAccount (accountId : String) (policy : RuntimeCandidatePolicy) :
    Option RuntimeCandidate :=
  if policy.weight = 0 then none
  else
    match r.scheduler.candidates.get? accountId with
    | none => none
    | some candidate =>
      if candidate.kind ≠ .oauthAccount || candidate.accountId ≠ some accountId then none
      else some (applyCandidatePolicy candidate policy
        (Runtime.modelRules policy.allowedModels policy.excludedModels))

def updateAccountPolicy (accountId : String) (policy : RuntimeCandidatePolicy) :
    GatewayRuntime × Bool :=
  match r.stageAccount accountId policy with
  | none => (r, false)
  | some candidate => (r.call (.pool (.upsert candidate)), true)

/-! ## Removal -/

/-- What is dropped with a candidate outside the scheduler. -/
def tearDown (candidateId : String) : GatewayRuntime :=
  { r with
    passiveQuotas := r.passiveQuotas.erase candidateId
    chatgptAccounts := r.chatgptAccounts.modify candidateId fun account =>
      { account with active := false, agentIdentity := none } }

/-- Removal in the scheduler is deferred when a lease is out; the rest of the candidate's state is
torn down only when it was not. -/
def removeCandidate (candidateId : String) : GatewayRuntime × Bool :=
  let removed := (r.scheduler.remove candidateId).2.isSome
  let r := r.call (.pool (.remove candidateId))
  let deferred := r.scheduler.candidates.contains candidateId
  (if deferred then r else r.tearDown candidateId, removed)

def accountCandidateIsActive (candidateId : String) : Bool :=
  r.chatgptAccounts[candidateId]?.any (·.active)

/-! ## Leases and fences -/

/-- `try_select_and_reserve_for`: a lease on what was selected, under one lock. -/
def selectAndReserve (request : SelectionRequest) (lane : InFlightLane) :
    GatewayRuntime × Option (Selection × Lease) :=
  let selection := (r.scheduler.selectFor request lane).2
  let r := r.call (.pool (.quiet (.select request lane)))
  match selection with
  | none => (r, none)
  | some selection =>
    let lease : Lease := ⟨selection.candidateId, request.model, lane⟩
    let reserved :=
      (r.scheduler.reserveForLane lease.candidateId lease.model request.nowMs lane).2
    (r.call (.reserve lease request.nowMs), if reserved then some (selection, lease) else none)

def fenceExecution (candidateId : String) : GatewayRuntime × Bool :=
  let fenced := (r.scheduler.setExecutionFence candidateId true).2
  let r := r.call (.pool (.quiet (.setExecutionFence candidateId true)))
  (if fenced then { r with fences := candidateId :: r.fences } else r, fenced)

/-- A fence opens when it is dropped. -/
def dropFence (index : Nat) : GatewayRuntime :=
  match r.fences[index]? with
  | none => r
  | some candidateId =>
    { r.call (.pool (.quiet (.setExecutionFence candidateId false))) with
      fences := r.fences.eraseIdx index }

/-! ## Quota seen in passing, and agent identities -/

def passiveQuotaPersistDebounceMs : Nat := 5000

/-- A response with an accepted status carries quota headers. `merge` is
`merge_codex_quota_headers` on them; it answers `none` when they say nothing. -/
def observeCodexQuotaHeaders (candidateId : String) (accepted : Bool)
    (merge : QuotaSnapshot → Option QuotaSnapshot) (observedAtMs : Nat) : GatewayRuntime × Bool :=
  if !accepted || !r.chatgptAccounts.contains candidateId then (r, false)
  else
    match r.passiveQuotas[candidateId]? with
    | none => (r, false)
    | some state =>
      match merge state.snapshot with
      | none => (r, false)
      | some merged =>
        if merged = state.snapshot then (r, false)
        else
          let previousQuota :=
            CandidateQuota.fromSnapshot state.snapshot observedAtMs r.quotaStaleAfterMs
          let quota := CandidateQuota.fromSnapshot merged observedAtMs r.quotaStaleAfterMs
          let forcePersist := state.forcePersist || (decide (previousQuota ≠ quota) &&
            (decide (previousQuota = .exhausted) || decide (quota = .exhausted)))
          let updated := (r.scheduler.updateCandidateQuotaAt candidateId quota merged.updatedAtMs
            merged.limitingResetAtMs).2
          ({ r.call (.pool (.quiet (.updateCandidateQuotaAt candidateId quota merged.updatedAtMs
                merged.limitingResetAtMs))) with
              passiveQuotas := r.passiveQuotas.insert candidateId
                { state with snapshot := merged, dirty := true, forcePersist } }, updated)

def takePassiveQuotaSnapshot (candidateId : String) (nowMs : Nat) :
    GatewayRuntime × Option QuotaSnapshot :=
  match r.passiveQuotas[candidateId]? with
  | none => (r, none)
  | some state =>
    if !state.dirty || (!state.forcePersist &&
        decide (nowMs - state.lastPersistHintMs < passiveQuotaPersistDebounceMs)) then (r, none)
    else
      ({ r with
          passiveQuotas := r.passiveQuotas.insert candidateId
            { state with dirty := false, forcePersist := false, lastPersistHintMs := nowMs } },
        some state.snapshot)

/-- The end of `ensure_agent_identity_task`: a credential that was registered in the meantime is
stored unless the account has been deactivated. -/
def storeAgentIdentity (candidateId : String) (credential : AgentIdentityCredential) :
    GatewayRuntime :=
  { r with chatgptAccounts := r.chatgptAccounts.modify candidateId fun account =>
      if account.active then { account with agentIdentity := some credential } else account }

end GatewayRuntime

/-! ## Steps -/

inductive RuntimeOp
  | calls (ops : List QuietOp)
  | recordSuccessWithMetrics (candidateId model : String) (nowMs : Nat)
  | setCooldown (candidateId : String) (request : CooldownRequest) (enforcePolicy : Bool)
  | clearCandidateCooldown (candidateId model : String)
  | updateSourcePolicies (updates : List RuntimeSourcePolicyUpdate)
  | updateAccountPolicy (accountId : String) (policy : RuntimeCandidatePolicy)
  | removeCandidate (candidateId : String)
  | selectAndReserve (request : SelectionRequest) (lane : InFlightLane)
  | releaseLease (index : Nat)
  | fenceExecution (candidateId : String)
  | dropFence (index : Nat)
  | observeCodexQuotaHeaders (candidateId : String) (accepted : Bool)
      (merge : QuotaSnapshot → Option QuotaSnapshot) (observedAtMs : Nat)
  | takePassiveQuotaSnapshot (candidateId : String) (nowMs : Nat)
  | storeAgentIdentity (candidateId : String) (credential : AgentIdentityCredential)

def GatewayRuntime.step (r : GatewayRuntime) : RuntimeOp → GatewayRuntime
  | .calls ops => ops.foldl (fun r op => r.call (.pool (.quiet op))) r
  | .recordSuccessWithMetrics id model now => r.call (.pool (.recordSuccess id model now))
  | .setCooldown id request enforcePolicy => r.call (.pool (.cool id request enforcePolicy))
  | .clearCandidateCooldown id model => r.call (.pool (.clearCooldown id model))
  | .updateSourcePolicies updates => (r.updateSourcePolicies updates).1
  | .updateAccountPolicy id policy => (r.updateAccountPolicy id policy).1
  | .removeCandidate id => (r.removeCandidate id).1
  | .selectAndReserve request lane => (r.selectAndReserve request lane).1
  | .releaseLease index => r.call (.release index)
  | .fenceExecution id => (r.fenceExecution id).1
  | .dropFence index => r.dropFence index
  | .observeCodexQuotaHeaders id accepted merge now =>
    (r.observeCodexQuotaHeaders id accepted merge now).1
  | .takePassiveQuotaSnapshot id now => (r.takePassiveQuotaSnapshot id now).1
  | .storeAgentIdentity id credential => r.storeAgentIdentity id credential

end Zenith.Runtime
