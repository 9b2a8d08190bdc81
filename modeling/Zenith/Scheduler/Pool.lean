import Zenith.Scheduler.Activity
import Zenith.Scheduler.Affinity
import Zenith.Scheduler.Candidate

/-!
# The pool scheduler

`PoolScheduler` of `scheduler/selection.rs`: the candidate table and the side tables kept beside
it. This module has every operation that changes them except selection itself: configuration,
`upsert` and graceful removal, availability and quota updates, fences and capability blocks, the
provider storm breaker, affinity bindings, reservation and release, success and failure, and
cooldowns with their policy.

Operations take the scheduler and return the new one, with the source's result where it has one.
Times and counters are natural numbers; saturating arithmetic is explicit.
-/

namespace Zenith.Scheduler

open Std Zenith.Text Zenith.Tables

/-! ## State -/

def responseAffinityMaxEntries : Nat := 16384
def responseAffinityTtlMs : Nat := 30 * 24 * 60 * 60 * 1000
def promptAffinityMaxEntries : Nat := 16384
def promptAffinityTtlMs : Nat := 60 * 60 * 1000
def promptAffinityMaxInFlightSkew : Nat := 1
def promptAffinityQuotaSlackBps : Nat := 500
def maxOauthImageInFlight : Nat := 1
def providerStormWindowMs : Nat := 10000
def providerStormOpenMs : Nat := 30000
def providerStormThreshold : Nat := 3
def quotaStaleAfterMsDefault : Nat := 20 * 60 * 1000

inductive RoutingStrategy
  | adaptive
  | quotaHighest
  | subscriptionExpiry
  | subscriptionPlan
deriving DecidableEq, Repr

/-- Recent rate limits of one source and model, oldest first. -/
structure StormBreaker where
  failures : List Nat := []
  openUntilMs : Nat := 0
deriving DecidableEq, Repr

structure PoolScheduler where
  candidates : CandidateTable := .empty
  cooldownReasons : PairTable String String CooldownReason := ∅
  responseAffinity : AffinityCache := ⟨∅, responseAffinityMaxEntries, responseAffinityTtlMs⟩
  promptAffinity : AffinityCache := ⟨∅, promptAffinityMaxEntries, promptAffinityTtlMs⟩
  activity : SchedulerActivity := {}
  halfOpen : Finset (String × String) := ∅
  routingStrategy : RoutingStrategy := .adaptive
  quotaStaleAfterMs : Nat := quotaStaleAfterMsDefault
  subscriptionExpiresAtMs : Table String Nat := ∅
  subscriptionPlans : Table String String := ∅
  subscriptionPlanRanks : Table String Nat := ∅
  protectedCandidate : Option (String × Nat) := none
  executionFences : Table String Nat := ∅
  capabilityBlocks : Finset (String × String) := ∅
  providerStormBreakers : PairTable String String StormBreaker := ∅
  providerStormBreakerEnabled : Bool := false
  cooldownAfterFailures : Nat := 1
  keepLastCandidateAvailable : Bool := false
  /-- Removed candidates that stay in `candidates` while leases are active. -/
  retiredCandidates : Finset String := ∅

/-- A policy-checked cooldown: `scope` is what is cooled, the other fields say which request the
candidate failed on. -/
structure CooldownRequest where
  scope : String
  policyModel : String
  allowedProtocols : List WireApi := []
  requestScope : CandidateScope := {}
  retryAtMs : Nat
  reason : CooldownReason
  nowMs : Nat := 0

/-- The scope a cooldown request is filed under. -/
def CooldownRequest.key (request : CooldownRequest) : String :=
  if request.scope = "*" then "*" else asciiLower request.scope

/-- `subscription_plan_key`. Full Unicode lower-casing is a parameter. -/
def subscriptionPlanKey (toLowercase : String → String) (planType : Option String) : String :=
  (((planType.map trim).filter fun value => decide (value ≠ "")).map toLowercase).getD "unknown"

namespace PoolScheduler

def new : PoolScheduler := {}

/-! ## Configuration -/

def setCooldownPolicy (s : PoolScheduler) (cooldownAfterFailures : Nat)
    (keepLastCandidateAvailable : Bool) : PoolScheduler :=
  { s with
    cooldownAfterFailures := max cooldownAfterFailures 1
    keepLastCandidateAvailable := keepLastCandidateAvailable }

def setProviderStormBreakerEnabled (s : PoolScheduler) (enabled : Bool) : PoolScheduler :=
  { s with
    providerStormBreakerEnabled := enabled
    providerStormBreakers := if enabled then s.providerStormBreakers else ∅ }

def setRoutingStrategy (s : PoolScheduler) (strategy : RoutingStrategy) : PoolScheduler :=
  if s.routingStrategy = strategy then s
  else { s with routingStrategy := strategy, activity := s.activity.clearDispatches }

def setQuotaStaleAfterMs (s : PoolScheduler) (staleAfterMs : Nat) : PoolScheduler :=
  { s with quotaStaleAfterMs := max staleAfterMs 1 }

def setCandidateSubscriptionExpiry (s : PoolScheduler) (candidateId : String)
    (expiresAtMs : Option Nat) : PoolScheduler × Bool :=
  if !s.candidates.contains candidateId then (s, false)
  else
    match expiresAtMs with
    | some expiresAtMs =>
      ({ s with
          subscriptionExpiresAtMs := s.subscriptionExpiresAtMs.insert candidateId expiresAtMs },
        true)
    | none =>
      ({ s with subscriptionExpiresAtMs := s.subscriptionExpiresAtMs.erase candidateId }, true)

/-- Ranks the plans by position; of a repeated plan the last position counts. -/
def setSubscriptionPlanOrder (s : PoolScheduler) (order : List String) : PoolScheduler :=
  { s with
    subscriptionPlanRanks := order.zipIdx.foldl (fun ranks e => ranks.insert e.1 e.2) ∅ }

def setCandidateSubscriptionPlan (s : PoolScheduler) (toLowercase : String → String)
    (candidateId : String) (planType : Option String) : PoolScheduler × Bool :=
  if !s.candidates.contains candidateId then (s, false)
  else
    ({ s with
        subscriptionPlans :=
          s.subscriptionPlans.insert candidateId (subscriptionPlanKey toLowercase planType) },
      true)

/-! ## Membership -/

def activeRequestCount (s : PoolScheduler) (candidateId : String) : Nat :=
  s.activity.activeRequestCount candidateId

def inFlightCount (s : PoolScheduler) (candidateId : String) (lane : InFlightLane) : Nat :=
  s.activity.inFlightCount candidateId lane

def activeModelsFor (s : PoolScheduler) (candidateId : String) : List (String × Nat) :=
  s.activity.activeModelsFor candidateId

def upsert (s : PoolScheduler) (candidate : RuntimeCandidate) : PoolScheduler :=
  { s with
    retiredCandidates := s.retiredCandidates.erase candidate.id
    cooldownReasons := s.cooldownReasons.filter fun key _ =>
      decide (key.1 ≠ candidate.id) || candidate.cooldowns.contains key.2
    candidates := s.candidates.insert candidate }

/-- Forgets a candidate and everything filed under it. The storm breakers of its source go too. -/
def removeNow (s : PoolScheduler) (candidateId : String) :
    PoolScheduler × Option RuntimeCandidate :=
  let existing := s.candidates.get? candidateId
  ({ s with
      retiredCandidates := s.retiredCandidates.erase candidateId
      responseAffinity := (s.responseAffinity.invalidateCandidate candidateId).1
      promptAffinity := (s.promptAffinity.invalidateCandidate candidateId).1
      activity := s.activity.removeCandidate candidateId
      halfOpen := s.halfOpen.filter fun key => key.1 ≠ candidateId
      subscriptionExpiresAtMs := s.subscriptionExpiresAtMs.erase candidateId
      subscriptionPlans := s.subscriptionPlans.erase candidateId
      executionFences := s.executionFences.erase candidateId
      capabilityBlocks := s.capabilityBlocks.filter fun key => key.1 ≠ candidateId
      cooldownReasons := s.cooldownReasons.filter fun key _ => decide (key.1 ≠ candidateId)
      providerStormBreakers :=
        match existing with
        | some candidate =>
          s.providerStormBreakers.filter fun key _ => decide (key.1 ≠ candidate.sourceId)
        | none => s.providerStormBreakers
      protectedCandidate := s.protectedCandidate.filter fun e => decide (e.1 ≠ candidateId)
      candidates := s.candidates.erase candidateId },
    existing)

/-- The deferred branch of `remove`: the candidate is disabled, loses its affinity and stays in
`candidates` as a tombstone. -/
def retire (s : PoolScheduler) (candidateId : String) : PoolScheduler :=
  { s with
    responseAffinity := (s.responseAffinity.invalidateCandidate candidateId).1
    promptAffinity := (s.promptAffinity.invalidateCandidate candidateId).1
    candidates := s.candidates.modify candidateId fun candidate =>
      { candidate with enabled := false, draining := true }
    retiredCandidates := insert candidateId s.retiredCandidates }

/-- Removal is graceful: a candidate with active requests only stops being eligible and is marked
retired; it is forgotten when its last lease is released. -/
def remove (s : PoolScheduler) (candidateId : String) : PoolScheduler × Option RuntimeCandidate :=
  match s.candidates.get? candidateId with
  | none => (s, none)
  | some existing =>
    if 0 < s.activeRequestCount candidateId then (s.retire candidateId, some existing)
    else s.removeNow candidateId

def finalizeRetiredIfIdle (s : PoolScheduler) (candidateId : String) : PoolScheduler :=
  if candidateId ∈ s.retiredCandidates ∧ s.activeRequestCount candidateId = 0 then
    (s.removeNow candidateId).1
  else s

def setProtectedCandidate (s : PoolScheduler) (candidateId : Option String)
    (reserveBasisPoints : Nat) : PoolScheduler × Bool :=
  match candidateId with
  | none => ({ s with protectedCandidate := none }, true)
  | some candidateId =>
    if !s.candidates.contains candidateId then (s, false)
    else ({ s with protectedCandidate := some (candidateId, reserveBasisPoints) }, true)

/-! ## Availability, fences and blocks -/

def updateCandidateAvailabilityAt (s : PoolScheduler) (candidateId : String) (enabled : Bool)
    (health : CandidateHealth) (quota : CandidateQuota) (quotaUpdatedAtMs : Option Nat) :
    PoolScheduler × Bool :=
  match s.candidates.get? candidateId with
  | none => (s, false)
  | some candidate =>
    let quotaChanged := decide (candidate.quota ≠ quota)
    let quotaTimestampChanged :=
      quotaUpdatedAtMs.isSome && decide (candidate.quotaUpdatedAtMs ≠ quotaUpdatedAtMs)
    ({ s with
        candidates := s.candidates.modify candidateId fun candidate =>
          { candidate with
            enabled := enabled
            health := health
            quota := quota
            quotaUpdatedAtMs :=
              if quotaChanged || quotaTimestampChanged then quotaUpdatedAtMs
              else candidate.quotaUpdatedAtMs }
        activity := if quotaChanged then s.activity.clearDispatches else s.activity },
      true)

def updateCandidateQuotaAt (s : PoolScheduler) (candidateId : String) (quota : CandidateQuota)
    (quotaUpdatedAtMs quotaResetAtMs : Option Nat) : PoolScheduler × Bool :=
  match s.candidates.get? candidateId with
  | none => (s, false)
  | some candidate =>
    let changed := decide (candidate.quota ≠ quota) ||
      decide (candidate.quotaUpdatedAtMs ≠ quotaUpdatedAtMs) ||
      decide (candidate.quotaResetAtMs ≠ quotaResetAtMs)
    ({ s with
        candidates := s.candidates.modify candidateId fun candidate =>
          { candidate with
            quota := quota
            quotaUpdatedAtMs := quotaUpdatedAtMs
            quotaResetAtMs := quotaResetAtMs }
        activity := if changed then s.activity.clearDispatches else s.activity },
      true)

/-- Fences are counted: each `true` needs one `false`. -/
def setExecutionFence (s : PoolScheduler) (candidateId : String) (fenced : Bool) :
    PoolScheduler × Bool :=
  if !s.candidates.contains candidateId then (s, false)
  else if fenced then
    ({ s with executionFences := bump 32 s.executionFences candidateId 1 }, true)
  else ({ s with executionFences := unbump s.executionFences candidateId }, true)

def blockCapability (s : PoolScheduler) (candidateId model : String) : PoolScheduler × Bool :=
  if !s.candidates.contains candidateId then (s, false)
  else
    let key := (candidateId, asciiLower model)
    ({ s with capabilityBlocks := insert key s.capabilityBlocks },
      decide (key ∉ s.capabilityBlocks))

def clearCapabilityBlocks (s : PoolScheduler) (candidateId : String) : PoolScheduler × Bool :=
  let kept := s.capabilityBlocks.filter fun key => key.1 ≠ candidateId
  ({ s with capabilityBlocks := kept }, decide (kept.card ≠ s.capabilityBlocks.card))

def recordProviderRateLimit (s : PoolScheduler) (candidateId model : String) (nowMs : Nat) :
    PoolScheduler × Bool :=
  if !s.providerStormBreakerEnabled then (s, false)
  else
    match (s.candidates.get? candidateId).filter fun candidate =>
        decide (candidate.kind = .apiSource) with
    | none => (s, false)
    | some candidate =>
      let key := (candidate.sourceId, asciiLower model)
      let breaker := s.providerStormBreakers[key]?.getD {}
      let failures := (breaker.failures.dropWhile fun observed =>
        decide (providerStormWindowMs < nowMs - observed)) ++ [nowMs]
      let openUntilMs :=
        if providerStormThreshold ≤ failures.length then satAdd 64 nowMs providerStormOpenMs
        else breaker.openUntilMs
      ({ s with
          providerStormBreakers := s.providerStormBreakers.insert key ⟨failures, openUntilMs⟩ },
        decide (nowMs < openUntilMs))

def setCandidateHealth (s : PoolScheduler) (candidateId : String) (health : CandidateHealth) :
    PoolScheduler × Bool :=
  if !s.candidates.contains candidateId then (s, false)
  else
    ({ s with candidates := s.candidates.modify candidateId fun c => { c with health := health } },
      true)

/-! ## Eligibility -/

def providerStormOpen (s : PoolScheduler) (candidate : RuntimeCandidate) (model : String)
    (nowMs : Nat) : Bool :=
  s.providerStormBreakerEnabled &&
    s.providerStormBreakers[(candidate.sourceId, asciiLower model)]?.any fun breaker =>
      decide (nowMs < breaker.openUntilMs)

/-- The protected candidate is used only while its known, fresh quota exceeds the reserve. -/
def quotaReserveAllows (s : PoolScheduler) (candidate : RuntimeCandidate) (nowMs : Nat) : Bool :=
  match s.protectedCandidate.filter fun e => decide (e.1 = candidate.id) with
  | none => true
  | some (_, reserve) =>
    match candidate.quota with
    | .available remaining =>
      if candidate.quotaUpdatedAtMs.any fun updatedAtMs =>
          decide (s.quotaStaleAfterMs < nowMs - updatedAtMs) then false
      else decide (reserve < remaining)
    | _ => false

def isEligible (s : PoolScheduler) (candidate : RuntimeCandidate) (model : String)
    (allowedProtocols : List WireApi) (scope : CandidateScope) (nowMs : Nat) : Bool :=
  decide (candidate.id ∉ s.retiredCandidates) && !s.executionFences.contains candidate.id &&
    decide ((candidate.id, asciiLower model) ∉ s.capabilityBlocks) &&
    !s.providerStormOpen candidate model nowMs && s.quotaReserveAllows candidate nowMs &&
    candidate.isEligible model allowedProtocols scope nowMs &&
    (halfOpenScope candidate model nowMs).all fun scope => decide ((candidate.id, scope) ∉ s.halfOpen)

/-- OAuth accounts take one image request at a time; text is not limited. -/
def laneAllows (s : PoolScheduler) (candidate : RuntimeCandidate) (lane : InFlightLane) : Bool :=
  if candidate.kind ≠ .oauthAccount ∨ lane = .text then true
  else decide (s.inFlightCount candidate.id .image < maxOauthImageInFlight)

/-! ## Affinity -/

def bindResponseAffinity (s : PoolScheduler) (key candidateId : String) (nowMs : Nat) :
    PoolScheduler × Bool :=
  if !s.candidates.contains candidateId then (s, false)
  else ({ s with responseAffinity := s.responseAffinity.bind key candidateId nowMs }, true)

def bindPromptAffinity (s : PoolScheduler) (key candidateId : String) (nowMs : Nat) :
    PoolScheduler × Bool :=
  if !s.candidates.contains candidateId then (s, false)
  else ({ s with promptAffinity := s.promptAffinity.bind key candidateId nowMs }, true)

def bindPromptAffinitySticky (s : PoolScheduler) (key candidateId : String) (nowMs : Nat) :
    PoolScheduler × Bool :=
  if !s.candidates.contains candidateId then (s, false)
  else
    let bound := s.promptAffinity.bindIfUnboundOrSame key candidateId nowMs
    ({ s with promptAffinity := bound.1 }, bound.2)

def restoreResponseAffinity (s : PoolScheduler) (key candidateId : String)
    (expiresAtMs nowMs : Nat) : PoolScheduler × Bool :=
  if !s.candidates.contains candidateId || decide (expiresAtMs ≤ nowMs) then (s, false)
  else
    ({ s with responseAffinity := s.responseAffinity.restore key candidateId expiresAtMs nowMs },
      true)

def restorePromptAffinity (s : PoolScheduler) (key candidateId : String)
    (expiresAtMs nowMs : Nat) : PoolScheduler × Bool :=
  if !s.candidates.contains candidateId || decide (expiresAtMs ≤ nowMs) then (s, false)
  else
    ({ s with promptAffinity := s.promptAffinity.restore key candidateId expiresAtMs nowMs }, true)

def hasResponseAffinity (s : PoolScheduler) (key : String) (nowMs : Nat) : PoolScheduler × Bool :=
  let found := s.responseAffinity.contains key nowMs
  ({ s with responseAffinity := found.1 }, found.2)

def hasPromptAffinity (s : PoolScheduler) (key : String) (nowMs : Nat) : PoolScheduler × Bool :=
  let found := s.promptAffinity.contains key nowMs
  ({ s with promptAffinity := found.1 }, found.2)

def invalidateResponseAffinity (s : PoolScheduler) (key : String) : PoolScheduler × Bool :=
  let dropped := s.responseAffinity.invalidate key
  ({ s with responseAffinity := dropped.1 }, dropped.2)

/-! ## Leases -/

/-- `reserve_for` and `reserve_image_for`. After an expired cooldown the reservation is a probe and
fails when its scope is already being probed. -/
def reserveForLane (s : PoolScheduler) (candidateId model : String) (nowMs : Nat)
    (lane : InFlightLane) : PoolScheduler × Bool :=
  match s.candidates.get? candidateId with
  | none => (s, false)
  | some candidate =>
    if !s.laneAllows candidate lane then (s, false)
    else
      let halfOpenKey :=
        if model = "" then none
        else (halfOpenScope candidate model nowMs).map fun scope => (candidateId, scope)
      match halfOpenKey with
      | none => ({ s with activity := s.activity.reserve candidateId model lane }, true)
      | some key =>
        if key ∈ s.halfOpen then (s, false)
        else
          ({ s with
              halfOpen := insert key s.halfOpen
              activity := s.activity.reserve candidateId model lane },
            true)

/-- The probe markers a release leaves: those of the model and of the wildcard are erased whoever
set them. -/
def releasedMarkers (halfOpen : Finset (String × String)) (candidateId : String)
    (model : Option String) : Finset (String × String) :=
  match model with
  | some model => (halfOpen.erase (candidateId, asciiLower model)).erase (candidateId, "*")
  | none => halfOpen.filter fun key => key.1 ≠ candidateId

/-- `release_for` and `release_image_for`. -/
def releaseForLane (s : PoolScheduler) (candidateId : String) (model : Option String)
    (lane : InFlightLane) : PoolScheduler × Bool :=
  let released := s.activity.release candidateId model lane
  let s := { s with
    halfOpen := releasedMarkers s.halfOpen candidateId model
    activity := released.1 }
  if released.2 then (s.finalizeRetiredIfIdle candidateId, true) else (s, false)

/-! ## Outcomes -/

/-- The candidate's own fields after a success: the applicable cooldowns that have expired are
dropped, and health and failures are reset when no cooldown stays active. -/
def recoverCandidate (candidate : RuntimeCandidate) (model : String) (nowMs : Nat) :
    RuntimeCandidate :=
  let cooldowns := candidate.cooldowns.filter fun scope retryAtMs =>
    !appliesTo scope model || decide (nowMs < retryAtMs)
  let recovered := !(valuesOf cooldowns).any fun retryAtMs => decide (nowMs < retryAtMs)
  { candidate with
    cooldowns := cooldowns
    lastUsedAt := some nowMs
    health := if recovered then .healthy else candidate.health
    consecutiveFailures := if recovered then 0 else candidate.consecutiveFailures }

theorem recoverCandidate_id (model : String) (nowMs : Nat) (candidate : RuntimeCandidate) :
    (recoverCandidate candidate model nowMs).id = candidate.id := rfl

/-- The scheduler after a success of a known candidate. -/
def settle (s : PoolScheduler) (candidate : RuntimeCandidate) (candidateId model : String)
    (nowMs : Nat) : PoolScheduler :=
  { s with
    halfOpen := s.halfOpen.erase (candidateId, asciiLower model)
    candidates := s.candidates.modify candidateId
      (fun candidate => recoverCandidate candidate model nowMs) (recoverCandidate_id model nowMs)
    cooldownReasons := s.cooldownReasons.filter fun key _ =>
      decide (key.1 ≠ candidateId) ||
        (recoverCandidate candidate model nowMs).cooldowns.contains key.2
    providerStormBreakers :=
      s.providerStormBreakers.erase (candidate.sourceId, asciiLower model) }

/-- `record_success_with_metrics`; the metrics are not used. Returns whether no cooldown of the
candidate is active any more. -/
def recordSuccess (s : PoolScheduler) (candidateId model : String) (nowMs : Nat) :
    PoolScheduler × Bool :=
  match s.candidates.get? candidateId with
  | none => (s, false)
  | some candidate =>
    (s.settle candidate candidateId model nowMs,
      !(valuesOf (recoverCandidate candidate model nowMs).cooldowns).any fun retryAtMs =>
        decide (nowMs < retryAtMs))

def recordFailure (s : PoolScheduler) (candidateId : String) : PoolScheduler × Option Nat :=
  match s.candidates.get? candidateId with
  | none => (s, none)
  | some candidate =>
    ({ s with
        candidates := s.candidates.modify candidateId fun c =>
          { c with consecutiveFailures := satAdd 32 c.consecutiveFailures 1 } },
      some (satAdd 32 candidate.consecutiveFailures 1))

def resetFailures (s : PoolScheduler) (candidateId : String) : PoolScheduler × Bool :=
  if !s.candidates.contains candidateId then (s, false)
  else
    ({ s with
        candidates := s.candidates.modify candidateId fun c => { c with consecutiveFailures := 0 } },
      true)

/-! ## Cooldowns -/

/-- At most one candidate is eligible. The candidate in question is counted only when it is
eligible itself. -/
def isLastApplicableCandidate (s : PoolScheduler) (candidateId model : String)
    (allowedProtocols : List WireApi) (requestScope : CandidateScope) (nowMs : Nat) : Bool :=
  if !s.candidates.contains candidateId then false
  else
    decide ((s.candidates.values.filter fun candidate =>
      s.isEligible candidate model allowedProtocols requestScope nowMs).length ≤ 1)

def transientCooldownAllowed (s : PoolScheduler) (candidateId model : String)
    (allowedProtocols : List WireApi) (requestScope : CandidateScope) (nowMs : Nat) : Bool :=
  match s.candidates.get? candidateId with
  | none => false
  | some candidate =>
    if candidate.consecutiveFailures < s.cooldownAfterFailures then false
    else if !s.keepLastCandidateAvailable then true
    else !s.isLastApplicableCandidate candidateId model allowedProtocols requestScope nowMs

/-- Whether the reason of a new cooldown replaces the stored one. -/
def shouldStoreReason (previous : Option Nat) (previousReason : Option CooldownReason)
    (retryAtMs : Nat) (reason : CooldownReason) : Bool :=
  match previous with
  | none => true
  | some current =>
    decide (current < retryAtMs) ||
      (decide (retryAtMs = current) && decide (reason = .rateLimit) &&
        decide (previousReason ≠ some .mandatory)) ||
      (decide (reason = .mandatory) && decide (previousReason ≠ some .mandatory))

/-- Lengthens, never shortens, the cooldown of a scope and erases the probe markers the scope
covers. -/
def storeCooldown (s : PoolScheduler) (candidate : RuntimeCandidate) (candidateId scope : String)
    (retryAtMs : Nat) (reason : CooldownReason) : PoolScheduler :=
  { s with
    candidates := s.candidates.modify candidateId fun candidate =>
      { candidate with
        cooldowns := candidate.cooldowns.alter scope fun current =>
          some (max (current.getD 0) retryAtMs) }
    cooldownReasons :=
      if shouldStoreReason candidate.cooldowns[scope]? s.cooldownReasons[(candidateId, scope)]?
          retryAtMs reason then
        s.cooldownReasons.insert (candidateId, scope) reason
      else s.cooldownReasons
    halfOpen :=
      if scope = "*" then s.halfOpen.filter fun key => key.1 ≠ candidateId
      else s.halfOpen.erase (candidateId, scope) }

def setCooldownWithReasonInner (s : PoolScheduler) (candidateId : String)
    (request : CooldownRequest) (enforcePolicy : Bool) : PoolScheduler × Bool :=
  if enforcePolicy && decide (request.reason = .transient) &&
      !s.transientCooldownAllowed candidateId request.policyModel request.allowedProtocols
        request.requestScope request.nowMs then
    (s, false)
  else
    match s.candidates.get? candidateId with
    | none => (s, false)
    | some candidate =>
      (s.storeCooldown candidate candidateId request.key request.retryAtMs request.reason, true)

def setCooldownWithReasonForModelAt (s : PoolScheduler) (candidateId : String)
    (request : CooldownRequest) : PoolScheduler × Bool :=
  s.setCooldownWithReasonInner candidateId request true

/-- Drops the cooldowns filed under any spelling of `model`, with their reasons. -/
def dropCooldowns (s : PoolScheduler) (candidateId model : String) : PoolScheduler :=
  { s with
    candidates := s.candidates.modify candidateId fun candidate =>
      { candidate with
        cooldowns := candidate.cooldowns.filter fun scope _ => !eqIgnoreAsciiCase scope model }
    cooldownReasons := s.cooldownReasons.filter fun key _ =>
      decide (key.1 ≠ candidateId) || !eqIgnoreAsciiCase key.2 model }

def clearCooldown (s : PoolScheduler) (candidateId model : String) : PoolScheduler × Bool :=
  match s.candidates.get? candidateId with
  | none => (s, false)
  | some candidate =>
    let kept := candidate.cooldowns.filter fun scope _ => !eqIgnoreAsciiCase scope model
    if kept.size = candidate.cooldowns.size then (s, false)
    else (s.dropCooldowns candidateId model, true)

/-! ## What an operation can do -/

variable (s : PoolScheduler)

/-- Removal does nothing to an unknown candidate, retires a busy one and forgets an idle one. -/
theorem remove_cases (id : String) :
    (s.candidates.get? id = none ∧ (s.remove id).1 = s) ∨
      (∃ candidate, s.candidates.get? id = some candidate ∧ 0 < s.activeRequestCount id ∧
        (s.remove id).1 = s.retire id) ∨
      (∃ candidate, s.candidates.get? id = some candidate ∧ s.activeRequestCount id = 0 ∧
        (s.remove id).1 = (s.removeNow id).1) := by
  unfold remove
  cases hget : s.candidates.get? id with
  | none => exact .inl ⟨rfl, rfl⟩
  | some candidate =>
    simp only
    split
    · next hbusy => exact .inr (.inl ⟨candidate, rfl, hbusy, rfl⟩)
    · next hidle => exact .inr (.inr ⟨candidate, rfl, Nat.eq_zero_of_not_pos hidle, rfl⟩)

theorem recordSuccess_cases (id model : String) (nowMs : Nat) :
    (s.recordSuccess id model nowMs).1 = s ∨
      ∃ candidate, s.candidates.get? id = some candidate ∧
        (s.recordSuccess id model nowMs).1 = s.settle candidate id model nowMs := by
  unfold recordSuccess
  cases hget : s.candidates.get? id with
  | none => exact .inl rfl
  | some candidate => exact .inr ⟨candidate, rfl, rfl⟩

/-- A cooldown request is refused and changes nothing, or is stored for a known candidate. -/
theorem setCooldown_cases (id : String) (request : CooldownRequest) (enforcePolicy : Bool) :
    s.setCooldownWithReasonInner id request enforcePolicy = (s, false) ∨
      ∃ candidate, s.candidates.get? id = some candidate ∧
        s.setCooldownWithReasonInner id request enforcePolicy =
          (s.storeCooldown candidate id request.key request.retryAtMs request.reason, true) := by
  unfold setCooldownWithReasonInner
  split
  · exact .inl rfl
  · cases hget : s.candidates.get? id with
    | none => exact .inl rfl
    | some candidate => exact .inr ⟨candidate, rfl, rfl⟩

theorem clearCooldown_cases (id model : String) :
    (s.clearCooldown id model).1 = s ∨
      (s.clearCooldown id model).1 = s.dropCooldowns id model := by
  unfold clearCooldown
  cases s.candidates.get? id with
  | none => exact .inl rfl
  | some candidate =>
    simp only
    split
    · exact .inl rfl
    · exact .inr rfl

/-- What a reservation can do: nothing, when it fails; else it counts the lease, and sets at most
one marker, for the scope it probes. -/
theorem reserveForLane_cases (id model : String) (nowMs : Nat) (lane : InFlightLane) :
    s.reserveForLane id model nowMs lane = (s, false) ∨
      ∃ candidate, s.candidates.get? id = some candidate ∧ s.laneAllows candidate lane = true ∧
        ((s.reserveForLane id model nowMs lane =
            ({ s with activity := s.activity.reserve id model lane }, true) ∧
          (model = "" ∨ halfOpenScope candidate model nowMs = none)) ∨
        ∃ scope, halfOpenScope candidate model nowMs = some scope ∧ (id, scope) ∉ s.halfOpen ∧
          model ≠ "" ∧ s.reserveForLane id model nowMs lane =
            ({ s with
                halfOpen := insert (id, scope) s.halfOpen
                activity := s.activity.reserve id model lane }, true)) := by
  unfold reserveForLane
  cases hget : s.candidates.get? id with
  | none => exact .inl rfl
  | some candidate =>
    simp only
    cases hlane : s.laneAllows candidate lane with
    | false => exact .inl rfl
    | true =>
      by_cases hmodel : model = ""
      · exact .inr ⟨candidate, rfl, hlane, .inl ⟨by simp [hmodel], .inl hmodel⟩⟩
      · cases hscope : halfOpenScope candidate model nowMs with
        | none => exact .inr ⟨candidate, rfl, hlane, .inl ⟨by simp [hmodel], .inr hscope⟩⟩
        | some scope =>
          simp only [Bool.not_true, Bool.false_eq_true, if_false, hmodel, Option.map_some]
          split
          · exact .inl rfl
          · next hfree =>
            exact .inr ⟨candidate, rfl, hlane, .inr ⟨scope, hscope, hfree, hmodel, rfl⟩⟩

end PoolScheduler

end Zenith.Scheduler
