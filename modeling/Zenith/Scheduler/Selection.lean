import Zenith.Scheduler.Pool

/-!
# Routing preference and selection

The routing policy of `scheduler/selection/routing_policy.rs` and the selection of
`scheduler/selection.rs`: response affinity, which is mandatory, then the preferred eligible
candidate, from which prompt affinity may deviate within limits. `earliestRetryAt` and
`allApplicableCooldown` say when to come back.
-/

namespace Zenith.Scheduler

open Std Zenith.Text Zenith.Tables Zenith.Comparators

/-! ## Requests and answers -/

structure SelectionRequest where
  model : String
  allowedProtocols : List WireApi
  scope : CandidateScope := {}
  tried : Finset String := ∅
  responseAffinityKey : Option String := none
  promptAffinityKey : Option String := none
  nowMs : Nat

inductive SelectionReason
  | responseAffinity
  | promptCacheAffinity
  | onlyEligible
  | routingTier
  | sourceRole
  | parallelLoad
  | sourceLoad
  | poolPolicy
  | quotaHeadroom
  | subscriptionExpiry
  | subscriptionPlan
  | manualPriority
  | fairRotation
  | fallbackAttempt
  | stableTieBreak
deriving DecidableEq, Repr

structure RoutingDiagnostics where
  reason : SelectionReason
  eligibleCandidates : Nat
  quotaRemainingBasisPoints : Option Nat
  inFlightBefore : Nat
  dispatchesBefore : Nat
  endpointKind : Option String := none
deriving DecidableEq, Repr

structure Selection where
  candidateId : String
  responseAffinityHit : Bool
  halfOpenProbe : Bool
  diagnostics : RoutingDiagnostics
deriving DecidableEq, Repr

/-! ## Routing policy -/

def apiSourcePrimaryPriority : Int := 1000000
def apiSourceReservePriority : Int := -1000000
def quotaNoiseTieBps : Nat := 1
def quotaResetTieBps : Nat := 100

/-- Primary API sources come before the pool, reserve sources after it. -/
def routingTier (candidate : RuntimeCandidate) : Int :=
  match candidate.kind with
  | .oauthAccount => 0
  | .apiSource =>
    if apiSourcePrimaryPriority ≤ candidate.priority then 1
    else if candidate.priority ≤ apiSourceReservePriority then -1
    else 0

def candidateKindPreference (candidate : RuntimeCandidate) : Nat :=
  if candidate.kind = .oauthAccount then 1 else 0

def compareApiSourcePriority (left right : RuntimeCandidate) : Ordering :=
  if left.kind = .apiSource ∧ right.kind = .apiSource ∧ routingTier left = routingTier right then
    compare left.priority right.priority
  else .eq

namespace PoolScheduler

def dispatchCount (s : PoolScheduler) (candidateId : String) (lane : InFlightLane) : Nat :=
  s.activity.dispatchCount candidateId lane

/-- An API source's reservation counts toward rotation only once it has settled. -/
def rotationDispatchCount (s : PoolScheduler) (candidate : RuntimeCandidate)
    (lane : InFlightLane) : Nat :=
  let dispatches := s.dispatchCount candidate.id lane
  if candidate.kind = .apiSource then dispatches - s.inFlightCount candidate.id lane
  else dispatches

def routingQuotaFactor (s : PoolScheduler) (candidate : RuntimeCandidate) : Nat :=
  let reserve :=
    ((s.protectedCandidate.filter fun e => decide (e.1 = candidate.id)).map Prod.snd).getD 0
  match candidate.quota with
  | .available remaining => remaining - reserve
  | .unknown => if reserve = 0 then 1 else 0
  | .exhausted | .stale => 0

def routingQuota (s : PoolScheduler) (candidate : RuntimeCandidate) : CandidateQuota :=
  match candidate.quota with
  | .available _ => .available (s.routingQuotaFactor candidate)
  | quota => quota

/-- Quotas within one basis point tie; within a hundred the account that resets first is preferred,
when both resets are known; otherwise the larger quota is. -/
def compareQuotaAndReset (s : PoolScheduler) (left right : RuntimeCandidate) : Ordering :=
  match s.routingQuota left, s.routingQuota right with
  | .available leftQuota, .available rightQuota =>
    if absDiff leftQuota rightQuota ≤ quotaNoiseTieBps then .eq
    else if absDiff leftQuota rightQuota ≤ quotaResetTieBps then
      match left.quotaResetAtMs, right.quotaResetAtMs with
      | some leftReset, some rightReset =>
        (compare rightReset leftReset).then (compare leftQuota rightQuota)
      | _, _ => compare leftQuota rightQuota
    else compare leftQuota rightQuota
  | leftQuota, rightQuota => leftQuota.comparePreference rightQuota

def compareEqualQuotaRotation (left right : RuntimeCandidate)
    (leftDispatches rightDispatches : Nat) : Ordering :=
  if left.kind = .apiSource ∧ right.kind = .apiSource then .eq
  else compare rightDispatches leftDispatches

def compareSubscriptionExpiry (s : PoolScheduler) (left right : RuntimeCandidate) : Ordering :=
  if left.kind ≠ .oauthAccount ∨ right.kind ≠ .oauthAccount then .eq
  else
    match s.subscriptionExpiresAtMs[left.id]?, s.subscriptionExpiresAtMs[right.id]? with
    | some left, some right => compare right left
    | some _, none => .gt
    | none, some _ => .lt
    | none, none => .eq

/-- The rank of the candidate's plan; an unranked plan comes last (`usize::MAX`). -/
def planRank (s : PoolScheduler) (candidate : RuntimeCandidate) : Nat :=
  (s.subscriptionPlans[candidate.id]?.bind fun plan => s.subscriptionPlanRanks[plan]?).getD
    (2 ^ 64 - 1)

def compareSubscriptionPlan (s : PoolScheduler) (left right : RuntimeCandidate) : Ordering :=
  if left.kind ≠ .oauthAccount ∨ right.kind ≠ .oauthAccount then .eq
  else compare (s.planRank right) (s.planRank left)

/-- Parallel load separates OAuth accounts only. -/
def compareLoad (s : PoolScheduler) (left right : RuntimeCandidate) (lane : InFlightLane) :
    Ordering :=
  if left.kind = .oauthAccount ∧ right.kind = .oauthAccount then
    compare (s.inFlightCount right.id lane) (s.inFlightCount left.id lane)
  else .eq

def fairRotation (s : PoolScheduler) (left right : RuntimeCandidate) (lane : InFlightLane) :
    Ordering :=
  compareEqualQuotaRotation left right (s.rotationDispatchCount left lane)
    (s.rotationDispatchCount right lane)

/-- `gt` means that `left` is preferred. -/
def comparePreference (s : PoolScheduler) (left right : RuntimeCandidate) (lane : InFlightLane) :
    Ordering :=
  let common := ((compare (routingTier left) (routingTier right)).then
    (compare (candidateKindPreference left) (candidateKindPreference right))).then
      (compareApiSourcePriority left right)
  match s.routingStrategy with
  | .adaptive =>
    (((common.then (s.compareQuotaAndReset left right)).then (s.compareLoad left right lane)).then
      (s.fairRotation left right lane)).then (compare right.id left.id)
  | .quotaHighest =>
    ((common.then (s.compareQuotaAndReset left right)).then (s.compareLoad left right lane)).then
      (compare right.id left.id)
  | .subscriptionExpiry =>
    ((((common.then (s.compareSubscriptionExpiry left right)).then
      (s.compareQuotaAndReset left right)).then (s.compareLoad left right lane)).then
        (s.fairRotation left right lane)).then (compare right.id left.id)
  | .subscriptionPlan =>
    ((((common.then (s.compareSubscriptionPlan left right)).then
      (s.compareQuotaAndReset left right)).then (s.compareLoad left right lane)).then
        (s.fairRotation left right lane)).then (compare right.id left.id)

def selectionReason (s : PoolScheduler) (selected runnerUp : RuntimeCandidate)
    (lane : InFlightLane) : SelectionReason :=
  if routingTier selected ≠ routingTier runnerUp ∨
      candidateKindPreference selected ≠ candidateKindPreference runnerUp then
    .sourceRole
  else if compareApiSourcePriority selected runnerUp ≠ .eq then .manualPriority
  else if s.routingStrategy = .subscriptionExpiry ∧
      s.compareSubscriptionExpiry selected runnerUp ≠ .eq then
    .subscriptionExpiry
  else if s.routingStrategy = .subscriptionPlan ∧
      s.compareSubscriptionPlan selected runnerUp ≠ .eq then
    .subscriptionPlan
  else if s.compareQuotaAndReset selected runnerUp ≠ .eq then .quotaHeadroom
  else if selected.kind = .oauthAccount ∧ runnerUp.kind = .oauthAccount ∧
      s.inFlightCount selected.id lane ≠ s.inFlightCount runnerUp.id lane then
    .parallelLoad
  else if s.routingStrategy ≠ .quotaHighest ∧ s.fairRotation selected runnerUp lane ≠ .eq then
    .fairRotation
  else .stableTieBreak

/-! ## Selection -/

/-- The conjunction every selectable candidate meets: untried, allowed on the lane, eligible. -/
def selectable (s : PoolScheduler) (request : SelectionRequest) (lane : InFlightLane)
    (candidate : RuntimeCandidate) : Bool :=
  decide (candidate.id ∉ request.tried) && s.laneAllows candidate lane &&
    s.isEligible candidate request.model request.allowedProtocols request.scope request.nowMs

/-- The selectable candidates in id order. -/
def eligibleFor (s : PoolScheduler) (request : SelectionRequest) (lane : InFlightLane) :
    List RuntimeCandidate :=
  s.candidates.values.filter (s.selectable request lane)

def isHalfOpenProbe (s : PoolScheduler) (candidateId model : String) (nowMs : Nat) : Bool :=
  (s.candidates.get? candidateId).any fun candidate =>
    (halfOpenScope candidate model nowMs).isSome

def diagnostics (s : PoolScheduler) (candidateId : String) (reason : SelectionReason)
    (eligibleCandidates : Nat) (lane : InFlightLane) : Option RoutingDiagnostics :=
  (s.candidates.get? candidateId).map fun candidate =>
    { reason := reason
      eligibleCandidates := min eligibleCandidates (2 ^ 32 - 1)
      quotaRemainingBasisPoints :=
        match candidate.quota with
        | .available remaining => some remaining
        | _ => none
      inFlightBefore := s.inFlightCount candidateId lane
      dispatchesBefore := s.dispatchCount candidateId lane }

/-- Whether prompt affinity may keep `preferred` although `baseline` is the preferred candidate. -/
def promptAffinityAllows (s : PoolScheduler) (preferred baseline : RuntimeCandidate)
    (lane : InFlightLane) (explicitPromptCacheKey : Bool) : Bool :=
  if routingTier preferred ≠ routingTier baseline ∨
      candidateKindPreference preferred ≠ candidateKindPreference baseline ∨
      satAdd 32 (s.inFlightCount baseline.id lane) promptAffinityMaxInFlightSkew <
        s.inFlightCount preferred.id lane then
    false
  else if preferred.kind = .apiSource ∧ baseline.kind = .apiSource ∧
      preferred.priority < baseline.priority then
    false
  else if explicitPromptCacheKey then true
  else
    match s.routingQuota preferred, s.routingQuota baseline with
    | .available preferred, .available baseline =>
      decide (baseline ≤ satAdd 64 preferred promptAffinityQuotaSlackBps)
    | .available _, .unknown | .unknown, .unknown => true
    | _, _ => false

/-- Selection of a bound response: its owner or nothing. -/
def selectOwner (s : PoolScheduler) (request : SelectionRequest) (lane : InFlightLane)
    (key candidateId : String) : PoolScheduler × Option Selection :=
  if (s.candidates.get? candidateId).any (s.selectable request lane) then
    let s := { s with responseAffinity := (s.responseAffinity.refresh key request.nowMs).1 }
    (s, (s.diagnostics candidateId .responseAffinity (s.eligibleFor request lane).length lane).map
      fun diagnostics =>
        { candidateId := candidateId
          responseAffinityHit := true
          halfOpenProbe := s.isHalfOpenProbe candidateId request.model request.nowMs
          diagnostics := diagnostics })
  else (s, none)

/-- The prompt affinity owner of the request; reading it prunes the cache. -/
def promptOwner (s : PoolScheduler) (request : SelectionRequest) :
    PoolScheduler × Option String :=
  match request.promptAffinityKey with
  | some key =>
    let found := s.promptAffinity.get key request.nowMs
    ({ s with promptAffinity := found.1 }, found.2)
  | none => (s, none)

/-- The preference maximum of the selectable candidates. -/
def baseline? (s : PoolScheduler) (request : SelectionRequest) (lane : InFlightLane) :
    Option RuntimeCandidate :=
  maxBy? (fun left right => s.comparePreference left right lane) (s.eligibleFor request lane)

/-- The baseline, or the prompt affinity owner where affinity may deviate from it. -/
def chooseCandidate (s : PoolScheduler) (request : SelectionRequest) (lane : InFlightLane)
    (owner : Option String) (baseline : RuntimeCandidate) : RuntimeCandidate :=
  let explicit := request.promptAffinityKey.any fun key => startsWith key "cache:"
  ((owner.bind fun candidateId =>
      (s.eligibleFor request lane).find? fun candidate => decide (candidate.id = candidateId)).filter
    fun preferred =>
      decide (preferred.id ≠ baseline.id) &&
        s.promptAffinityAllows preferred baseline lane explicit).getD baseline

/-- Selection by preference and prompt affinity. -/
def selectPreferred (s : PoolScheduler) (request : SelectionRequest) (lane : InFlightLane) :
    PoolScheduler × Option Selection :=
  let found := s.promptOwner request
  let s := found.1
  match s.baseline? request lane with
  | none => (s, none)
  | some baseline =>
    let eligible := s.eligibleFor request lane
    let selected := s.chooseCandidate request lane found.2 baseline
    let runnerUp := maxBy? (fun left right => s.comparePreference left right lane)
      (eligible.filter fun candidate => decide (candidate.id ≠ selected.id))
    let reason :=
      if selected.id ≠ baseline.id then .promptCacheAffinity
      else if request.tried ≠ ∅ then .fallbackAttempt
      else
        match runnerUp with
        | none => .onlyEligible
        | some runnerUp => s.selectionReason selected runnerUp lane
    (s, (s.diagnostics selected.id reason eligible.length lane).map fun diagnostics =>
      { candidateId := selected.id
        responseAffinityHit := false
        halfOpenProbe := s.isHalfOpenProbe selected.id request.model request.nowMs
        diagnostics := diagnostics })

/-- `select` and `select_image`. -/
def selectFor (s : PoolScheduler) (request : SelectionRequest) (lane : InFlightLane) :
    PoolScheduler × Option Selection :=
  match request.responseAffinityKey with
  | none => s.selectPreferred request lane
  | some key =>
    let found := s.responseAffinity.get key request.nowMs
    let s := { s with responseAffinity := found.1 }
    match found.2 with
    | some candidateId => s.selectOwner request lane key candidateId
    | none => s.selectPreferred request lane

/-! ## Retry times -/

/-- When the owner of a bound response can be asked again. -/
def ownerRetryAt (s : PoolScheduler) (request : SelectionRequest) (candidateId : String) :
    Option (RuntimeCandidate × Nat) :=
  if candidateId ∈ request.tried then none
  else
    match s.candidates.get? candidateId with
    | none => none
    | some candidate =>
      if !s.quotaReserveAllows candidate request.nowMs then none
      else
        (candidate.retryAtIfConfigured request.model request.allowedProtocols request.scope
          request.nowMs).map fun retryAt => (candidate, retryAt)

def earliestRetryAt (s : PoolScheduler) (request : SelectionRequest) :
    PoolScheduler × Option Nat :=
  match request.responseAffinityKey with
  | some key =>
    let found := s.responseAffinity.get key request.nowMs
    let s := { s with responseAffinity := found.1 }
    (s, (found.2.bind fun candidateId => s.ownerRetryAt request candidateId).map Prod.snd)
  | none =>
    (s, ((s.candidates.values.filter fun candidate =>
      decide (candidate.id ∉ request.tried) &&
        s.quotaReserveAllows candidate request.nowMs).filterMap fun candidate =>
          candidate.retryAtIfConfigured request.model request.allowedProtocols request.scope
            request.nowMs).min?)

def aggregateCooldownReason : CooldownReason → CooldownReason → CooldownReason
  | .mandatory, _ | _, .mandatory => .mandatory
  | .transient, _ | _, .transient => .transient
  | .rateLimit, .rateLimit => .rateLimit

theorem transCmp_scope : TransCmp (comparePair : String × String → String × String → Ordering) :=
  inferInstance

section
attribute [local instance] transCmp_scope

def cooldownReasonFor (s : PoolScheduler) (candidate : RuntimeCandidate) (model : String)
    (nowMs : Nat) : CooldownReason :=
  let active := candidate.cooldowns.toList.filter fun e =>
    decide (nowMs < e.2) && appliesTo e.1 model
  (active.foldl (fun reason e =>
    some (aggregateCooldownReason (reason.getD .rateLimit)
      (s.cooldownReasons[(candidate.id, e.1)]?.getD .transient))) none).getD .transient

end

/-- The loop of `all_applicable_cooldown`: the earliest retry time over the applicable candidates,
or nothing as soon as one of them is not cooling down. -/
def applicableCooldowns (s : PoolScheduler) (request : SelectionRequest) :
    List RuntimeCandidate → Option Nat → CooldownReason → Option (Nat × CooldownReason)
  | [], retryAt, reason => retryAt.map fun retryAt => (retryAt, reason)
  | candidate :: rest, retryAt, reason =>
    if candidate.id ∈ request.tried ∨ s.quotaReserveAllows candidate request.nowMs = false ∨
        candidate.isCatalogVisible request.model request.allowedProtocols request.scope = false then
      s.applicableCooldowns request rest retryAt reason
    else
      match candidate.retryAtIfConfigured request.model request.allowedProtocols request.scope
          request.nowMs with
      | none => none
      | some candidateRetryAt =>
        s.applicableCooldowns request rest
          (some ((retryAt.map fun current => min current candidateRetryAt).getD candidateRetryAt))
          (aggregateCooldownReason reason
            (s.cooldownReasonFor candidate request.model request.nowMs))

def allApplicableCooldown (s : PoolScheduler) (request : SelectionRequest) :
    PoolScheduler × Option (Nat × CooldownReason) :=
  match request.responseAffinityKey with
  | some key =>
    let found := s.responseAffinity.get key request.nowMs
    let s := { s with responseAffinity := found.1 }
    (s, (found.2.bind fun candidateId => s.ownerRetryAt request candidateId).map fun e =>
      (e.2, s.cooldownReasonFor e.1 request.model request.nowMs))
  | none => (s, s.applicableCooldowns request s.candidates.values none .rateLimit)

end PoolScheduler

end Zenith.Scheduler
