import Zenith.Accounts.AccountStatus
import Zenith.Lib.Records
import Zenith.Scheduler.Candidate

/-!
# Account records of the server

`ServerAccountRecord` of `state.rs` with its table, and the operational state of an account
(`protocol/management/routing.rs`): whether it is a candidate of the runtime, and why not.
-/

namespace Zenith.Server

open Zenith.Accounts Zenith.Quota Zenith.Records Zenith.Scheduler Zenith.Tables Zenith.Text

/-! ## Records -/

/-- The server makes its ids from a prefix and lower-case hexadecimal digits, so trimming and lower-casing them changes
nothing. -/
structure RecordId where
  text : String
  canonical : trim text = text ∧ asciiLower text = text ∧ text ≠ ""
deriving DecidableEq

inductive SubscriptionStatus
  | unknown
  | active
  | expired
  | forbidden
deriving DecidableEq, Repr

structure Subscription where
  planType : Option String := none
  activeUntilMs : Option Nat := none
  status : SubscriptionStatus := .unknown
  updatedAtMs : Option Nat := none
deriving DecidableEq, Repr

/-- The fields of an account record that no refresh of its quota or its models writes. -/
structure AccountSettings where
  label : String := ""
  enabled : Bool := true
  inPool : Bool := false
  draining : Bool := false
  allowedModels : List String := []
  excludedModels : List String := []
  priority : Int := 0
  weight : Nat := 1
  purchaseCostMicroUsd : Option Nat := none
  proxyId : Option String := none
  bypassCommonProxy : Bool := false
  secretRef : String
  lastUsedAtMs : Option Nat := none
deriving DecidableEq, Repr

structure ServerAccountRecord extends AccountSettings where
  id : RecordId
  sourceId : String := "openai_codex"
  authState : AccountAuthState := .unknown
  health : AccountHealthState := .unknown
  models : List String := []
  discoveredModels : Option (List String) := none
  subscription : Subscription := {}
  quota : QuotaSnapshot := {}
  cooldowns : List (String × Nat) := []
  consecutiveFailures : Nat := 0
  lastErrorCode : Option String := none
deriving DecidableEq

abbrev AccountTable := RecordTable ServerAccountRecord (·.id.text)

namespace ServerAccountRecord

variable (record : ServerAccountRecord)

def effectiveModels : List String := record.discoveredModels.getD record.models

/-- The part of a record that the reducers of `accounts/record.rs` work on. -/
def usageState : AccountUsageState :=
  ⟨record.authState, record.health, record.lastErrorCode, record.lastUsedAtMs⟩

end ServerAccountRecord

/-! ## Operational state -/

def isCheckpointCode (code : String) : Bool := code = "checkpoint" || code = "upstream_account_verification_required"

def accountCandidateHealth (authState : AccountAuthState) (health : AccountHealthState)
    (subscriptionStatus : SubscriptionStatus) (lastErrorCode : Option String) : CandidateHealth :=
  if authState.requiresFreshLogin then .reauthRequired
  else if authState = .error then .unhealthy
  else if lastErrorCode.any isCheckpointCode then .checkpoint
  else if lastErrorCode = some "captcha" then .captcha
  else if subscriptionStatus = .forbidden then .blocked
  else
    match health with
    | .unknown => .unknown
    | .healthy => .healthy
    | .degraded => .degraded
    | .unhealthy => .unhealthy
    | .blocked => .blocked

inductive AccountRoutingBlockReason
  | disabled
  | notInPool
  | draining
  | secretUnavailable
  | proxyUnavailable
  | reauthRequired
  | authError
  | checkpoint
  | captcha
  | subscriptionForbidden
  | accountUnhealthy
  | quotaExhausted
deriving DecidableEq, Repr

/-- The order of the checks decides which reason is told. -/
def accountRoutingBlockReason (record : ServerAccountRecord) (secretAvailable proxyAvailable : Bool)
    (health : CandidateHealth) (quota : CandidateQuota) : Option AccountRoutingBlockReason :=
  if !record.enabled then some .disabled
  else if !record.inPool then some .notInPool
  else if record.draining then some .draining
  else if !secretAvailable then some .secretUnavailable
  else if !proxyAvailable then some .proxyUnavailable
  else if record.authState.requiresFreshLogin then some .reauthRequired
  else if record.authState = .error then some .authError
  else if record.lastErrorCode.any isCheckpointCode then some .checkpoint
  else if record.lastErrorCode = some "captcha" then some .captcha
  else if record.subscription.status = .forbidden then some .subscriptionForbidden
  else if !health.isEligible then some .accountUnhealthy
  else if quota = .exhausted then some .quotaExhausted
  else none

structure AccountOperationalState where
  health : CandidateHealth
  quota : CandidateQuota
  routingBlockReason : Option AccountRoutingBlockReason
deriving DecidableEq, Repr

def quotaStaleAfterMs : Nat := 20 * 60 * 1000

def accountOperationalState (record : ServerAccountRecord) (secretAvailable proxyAvailable : Bool) (nowMs : Nat) :
    AccountOperationalState :=
  let health := accountCandidateHealth record.authState record.health record.subscription.status record.lastErrorCode
  let quota := CandidateQuota.fromSnapshot record.quota nowMs quotaStaleAfterMs
  { health, quota, routingBlockReason := accountRoutingBlockReason record secretAvailable proxyAvailable health quota }

/-- An exhausted quota is for the scheduler to wait out; the account stays a candidate. -/
def accountCandidateEnabled (enabled : Bool) (reason : Option AccountRoutingBlockReason) : Bool :=
  enabled && (reason = none || reason = some .quotaExhausted)

/-- An account whose secret and proxy are there is a candidate, whatever its quota and the time. -/
def ServerAccountRecord.routable (record : ServerAccountRecord) : Bool :=
  record.enabled && record.inPool && !record.draining && !record.authState.requiresFreshLogin &&
    decide (record.authState ≠ .error) && !record.lastErrorCode.any isCheckpointCode &&
    decide (record.lastErrorCode ≠ some "captcha") && decide (record.subscription.status ≠ .forbidden) &&
    (accountCandidateHealth record.authState record.health record.subscription.status record.lastErrorCode).isEligible

theorem accountCandidateEnabled_ite {enabled : Bool} {p : Prop} [Decidable p] {reason : AccountRoutingBlockReason}
    (h : reason ≠ .quotaExhausted) (rest : Option AccountRoutingBlockReason) :
    accountCandidateEnabled enabled (if p then some reason else rest) =
      (decide (¬p) && accountCandidateEnabled enabled rest) := by
  by_cases hp : p
  · rw [if_pos hp, decide_eq_false (not_not.mpr hp), Bool.false_and]
    unfold accountCandidateEnabled
    rw [decide_eq_false nofun, decide_eq_false fun heq => h (Option.some.inj heq)]
    exact Bool.and_false _
  · rw [if_neg hp, decide_eq_true hp, Bool.true_and]

theorem accountCandidateEnabled_eq (record : ServerAccountRecord) (secretAvailable proxyAvailable : Bool) (nowMs : Nat) :
    accountCandidateEnabled record.enabled
        (accountOperationalState record secretAvailable proxyAvailable nowMs).routingBlockReason =
      (record.routable && secretAvailable && proxyAvailable) := by
  have hquota : ∀ p : Prop, [Decidable p] →
      accountCandidateEnabled record.enabled (if p then some .quotaExhausted else none) = record.enabled := by
    intro p _
    unfold accountCandidateEnabled
    split <;> exact Bool.and_true _
  unfold accountOperationalState accountRoutingBlockReason ServerAccountRecord.routable
  dsimp only
  iterate 11 rw [accountCandidateEnabled_ite]
  · rw [hquota, Bool.eq_iff_iff]
    simp only [Bool.and_eq_true, decide_eq_true_eq, Bool.not_eq_true', Bool.not_eq_true, Bool.not_eq_false, ne_eq]
    tauto
  all_goals exact nofun

end Zenith.Server
