import Zenith.Lib.Publishing
import Zenith.Runtime.Gateway
import Zenith.Server.AccountRecords

/-!
# Building the gateway runtime

`app/runtime_build.rs`, `app/runtime_records.rs`, `account_proxy_config`, and `GatewayRuntime::from_mixed_pool` with
`runtime/build.rs`. `rebuild` reads the records, the secrets and the settings one by one and gives the runtime that is
to be installed, or none.

`BuildParts` are the pieces of other modules that a runtime is built from. HTTP clients, the registration of the tokens
and the model registry are left out; they do not decide which candidates and keys there are.
-/

namespace Zenith.Server

open Std Zenith.Publishing Zenith.Quota Zenith.Records Zenith.Runtime Zenith.Scheduler Zenith.Tables Zenith.Text

/-! ## Records -/

inductive SourceAdapter
  | native
  | responsesToMessages
  | responsesToGemini
deriving DecidableEq, Repr

inductive MessagesReasoningMode
  | disabled
  | budget
  | adaptive
deriving DecidableEq, Repr

inductive CacheWriteTtl
  | provider
  | fiveMinutes
  | oneHour
deriving DecidableEq, Repr

structure SourceProtocolBinding where
  wireApi : WireApi
  adapter : SourceAdapter := .native
  reasoningMode : MessagesReasoningMode := .disabled
  cacheWriteTtl : CacheWriteTtl := .provider
  modelIds : List String := []
deriving DecidableEq, Repr

structure SourceRecord where
  id : RecordId
  name : String := ""
  enabled : Bool := true
  inPool : Bool := false
  draining : Bool := false
  baseUrl : String := ""
  secretRef : String
  wireApi : WireApi := .responses
  protocolBindings : List SourceProtocolBinding := []
  models : List String := []
  allowedModels : List String := []
  excludedModels : List String := []
  priority : Int := 0
  weight : Nat := 1
  recoveryDelaySeconds : Nat := 0
deriving DecidableEq

structure GatewayKeyRecord where
  id : String
  enabled : Bool := true
  system : Bool := false
  secretRef : String
deriving DecidableEq, Repr

def isInternalGatewayKey (key : GatewayKeyRecord) : Bool :=
  key.system && (key.id = "key_system" || startsWith key.id "key_profile_rotation_")

structure ServerProxyRecord where
  id : String
  secretRef : String
deriving DecidableEq, Repr

structure AccountCredential where
  accessToken : String := ""
  refreshToken : Option String := none
  chatgptAccountId : String := ""
  responsesUrl : String := ""
  proxyUrl : Option String := none
  agentPrivateKey : Option String := none
  agentRuntimeId : Option String := none
  agentTaskId : Option String := none
deriving DecidableEq, Repr

def AccountCredential.hasOauth (credential : AccountCredential) : Bool := trim credential.accessToken ≠ ""

structure RoutingPolicy where
  maxRetryCandidates : Nat := 3
  cooldownAfterFailures : Nat := 1
  keepLastCandidateAvailable : Bool := false
  routingStrategy : RoutingStrategy := .adaptive
  subscriptionPlanOrder : List String := []
  defaultServiceTier : DefaultServiceTier := .standard
deriving DecidableEq, Repr

/-- The settings that go into a runtime. -/
structure RuntimeSettings where
  hiddenModels : List String := []
  modelReasoningAllowedLevels : List (String × List String) := []
  modelServiceTierOverrides : List (String × DefaultServiceTier) := []
  modelDisplayOrder : List String := []
  routingPolicy : RoutingPolicy := {}
  codexBackgroundTasksEnabled : Bool := true
  codexWebsocketsEnabled : Bool := true
deriving DecidableEq, Repr

/-- The tables, settings and secrets that a runtime is built from. -/
structure ServerContent where
  sources : RecordTable SourceRecord (·.id.text) := .empty
  accounts : AccountTable := .empty
  keys : RecordTable GatewayKeyRecord GatewayKeyRecord.id := .empty
  proxies : RecordTable ServerProxyRecord ServerProxyRecord.id := .empty
  settings : RuntimeSettings := {}
  accountProxyRequired : Bool := false
  commonProxyConfigured : Bool := false
  commonProxyId : Option String := none
  gatewayEnabled : Bool := true
  vault : Table String String := ∅

/-- Code of other modules that a runtime is built with. -/
structure BuildParts where
  protocolBindings : List SourceProtocolBinding → WireApi → List String → Except String (List SourceProtocolBinding)
  /-- `ProviderSource::validate` and `SourceConnector::new`. -/
  validateSource : SourceRecord → String → Except String Unit
  sourceConnector : SourceRecord → String → List SourceProtocolBinding → Except String Unit
  parseCredential : String → Option AccountCredential
  agentIdentity : String → String → Option String → Except String AgentIdentityCredential
  /-- The checks of the tokens, and of the account's URL and identity. -/
  validateTokens : AccountCredential → Except String Unit
  validateEndpoint : AccountCredential → Except String Unit
  /-- The text is what the proxy's configuration is parsed from. -/
  parseProxy : String → Bool
  imageMainModel : Finset String → Option String
  subscriptionPlanOrder : List String → Except String (List String)
  reasoningAllowedLevels : List (String × List String) → Except String (List (String × List String))
  serviceTierOverrides : List (String × DefaultServiceTier) → Except String (List (String × DefaultServiceTier))
  toLowercase : String → String

section
variable (parts : BuildParts)

/-- Some route of the source exposes a model; a source whose routes are invalid has none. -/
def SourceRecord.supportsAnyWireApi (source : SourceRecord) : Except String Bool :=
  (parts.protocolBindings source.protocolBindings source.wireApi source.models).map fun bindings =>
    bindings.any fun binding => binding.modelIds ≠ []

def SourceRecord.isPoolMember (source : SourceRecord) : Bool :=
  source.inPool && match source.supportsAnyWireApi parts with
    | .ok supports => supports
    | .error _ => false

def SourceAdapter.routeSuffix : SourceAdapter → WireApi → String
  | .responsesToMessages, .responses => "responses_to_messages"
  | .responsesToGemini, .responses => "responses_to_gemini"
  | .native, .responses => "responses"
  | .native, .chatCompletions => "chat_completions"
  | .native, .messages => "messages"
  | .native, .gemini => "gemini"
  | _, _ => "bridge"

def sourceCandidateId (sourceId : String) (binding : SourceProtocolBinding) (bindingCount : Nat) : String :=
  if bindingCount = 1 then sourceId else sourceId ++ "::" ++ binding.adapter.routeSuffix binding.wireApi

def AccountCredential.agentIdentity (credential : AccountCredential) : Except String (Option AgentIdentityCredential) :=
  match credential.agentPrivateKey, credential.agentRuntimeId, credential.agentTaskId with
  | none, none, none => .ok none
  | some privateKey, some runtimeId, taskId => (parts.agentIdentity privateKey runtimeId taskId).map some
  | _, _, _ => .error "stored Agent Identity credential is incomplete"

/-! ## The runtime -/

structure RuntimeKey where
  id : String
  enabled : Bool
  secret : String
  scope : CandidateScope
  modelRules : ModelRules
deriving DecidableEq

/-- The candidates with what belongs to them, the keys, and the rest of what a runtime is configured with. `sourceIds`
are the sources that have a connector; `directRefreshAccounts` refresh their tokens without a proxy, the accounts of
`refreshClients` through the given one. -/
structure ServerRuntime where
  gateway : GatewayRuntime := {}
  sourceIds : List String := []
  keys : List RuntimeKey := []
  settings : RuntimeSettings := {}
  directRefreshAccounts : List String := []
  refreshClients : List (String × String) := []

abbrev ServerRuntime.candidates (r : ServerRuntime) : CandidateTable := r.gateway.scheduler.candidates

/-- A source with its API key. -/
structure RuntimeSource where
  record : SourceRecord
  apiKey : String
deriving DecidableEq

structure RuntimeChatGptAccount where
  record : ServerAccountRecord
  credential : AccountCredential
  agentIdentity : Option AgentIdentityCredential
  proxy : Option String
  enabled : Bool
  health : CandidateHealth
  quota : CandidateQuota
deriving DecidableEq

def runtimeAccount (record : ServerAccountRecord) (credential : AccountCredential)
    (agentIdentity : Option AgentIdentityCredential) (proxy : Option String) (nowMs : Nat) : RuntimeChatGptAccount :=
  let operational := accountOperationalState record true true nowMs
  { record, credential, agentIdentity, proxy,
    enabled := accountCandidateEnabled record.enabled operational.routingBlockReason
    health := operational.health
    quota := operational.quota }

def sourceCandidate (source : SourceRecord) (candidateId : String) (binding : SourceProtocolBinding) : RuntimeCandidate :=
  { id := candidateId
    kind := .apiSource
    sourceId := source.id.text
    protocol := binding.wireApi
    enabled := source.enabled
    draining := source.draining
    priority := source.priority
    weight := source.weight
    models := normalizedSet binding.modelIds
    modelRules := modelRules source.allowedModels source.excludedModels
    health := .healthy }

def imageApiModel : String := "gpt-image-2"

def accountCandidate (account : RuntimeChatGptAccount) : RuntimeCandidate :=
  let models := normalizedSet account.record.effectiveModels
  { id := account.record.id.text
    kind := .oauthAccount
    sourceId := account.record.sourceId
    accountId := some account.record.id.text
    enabled := account.enabled
    draining := account.record.draining
    priority := account.record.priority
    weight := account.record.weight
    models := if (parts.imageMainModel models).isSome then insert imageApiModel models else models
    modelRules := modelRules account.record.allowedModels account.record.excludedModels
    health := account.health
    quota := account.quota
    quotaUpdatedAtMs := account.record.quota.updatedAtMs
    quotaResetAtMs := account.record.quota.limitingResetAtMs
    lastUsedAt := account.record.lastUsedAtMs }

/-! ## `GatewayRuntime::from_mixed_pool` -/

def require (p : Prop) [Decidable p] (message : String) : Except String Unit := if p then .ok () else .error message

def configureScheduler (policy : RoutingPolicy) (planOrder : List String) : GatewayRuntime :=
  let scheduler := ((((PoolScheduler.new.setCooldownPolicy policy.cooldownAfterFailures policy.keepLastCandidateAvailable
    ).setRoutingStrategy policy.routingStrategy).setSubscriptionPlanOrder planOrder).setQuotaStaleAfterMs quotaStaleAfterMs
    ).setProviderStormBreakerEnabled true
  { pool := { scheduler }, quotaStaleAfterMs }

/-- One route of a source. A route without models gives no candidate. -/
def addBinding (source : SourceRecord) (bindingCount : Nat) (r : GatewayRuntime) (binding : SourceProtocolBinding) :
    Except String GatewayRuntime :=
  if normalizedSet binding.modelIds = ∅ then .ok r
  else
    let candidateId := sourceCandidateId source.id.text binding bindingCount
    if r.sourceCandidateBindings.contains candidateId then .error "source protocol candidate ids must be unique"
    else
      .ok { r.call (.pool (.upsert (sourceCandidate source candidateId binding))) with
        sourceRecoveryDelaysMs := GatewayRuntime.setRecoveryDelay r.sourceRecoveryDelaysMs candidateId source.recoveryDelaySeconds
        sourceCandidateBindings := r.sourceCandidateBindings.insert candidateId source.id.text }

def addSource (r : GatewayRuntime × List String) (source : RuntimeSource) : Except String (GatewayRuntime × List String) := do
  let record := source.record
  parts.validateSource record source.apiKey
  require (record.weight ≠ 0) "source weight must be at least one"
  require (record.recoveryDelaySeconds ≤ 24 * 60 * 60) "source recovery delay must not exceed 24 hours"
  require (record.id.text ∉ r.2) "source ids must be unique"
  let bindings ← parts.protocolBindings record.protocolBindings record.wireApi record.models
  parts.sourceConnector record source.apiKey bindings
  let gateway ← bindings.foldlM (addBinding record bindings.length) r.1
  .ok (gateway, r.2 ++ [record.id.text])

def addAccount (sourceIds : List String) (r : GatewayRuntime) (account : RuntimeChatGptAccount) : Except String GatewayRuntime := do
  let record := account.record
  require (trim record.id.text ≠ "") "account candidate id must not be empty"
  require (trim record.sourceId ≠ "") "account source id must not be empty"
  require (trim account.credential.chatgptAccountId ≠ "") "ChatGPT account id must not be empty"
  require (record.weight ≠ 0) "account weight must be at least one"
  require (record.id.text ∉ sourceIds ∧ ¬r.sourceCandidateBindings.contains record.id.text ∧ ¬r.chatgptAccounts.contains record.id.text)
    "runtime candidate ids must be unique"
  parts.validateEndpoint account.credential
  let r := r.call (.pool (.upsert (accountCandidate parts account)))
  let r := r.call (.pool (.quiet (.setCandidateSubscriptionExpiry record.id.text record.subscription.activeUntilMs)))
  let r := r.call (.pool (.quiet (.setCandidateSubscriptionPlan parts.toLowercase record.id.text record.subscription.planType)))
  .ok { r with
    passiveQuotas := r.passiveQuotas.insert record.id.text
      { snapshot := record.quota, lastPersistHintMs := record.quota.updatedAtMs.getD 0 }
    chatgptAccounts := r.chatgptAccounts.insert record.id.text { agentIdentity := account.agentIdentity } }

/-- A key as it goes into the runtime: restricted to the members of the pool, and to the models that are not hidden. -/
def runtimeKey (hiddenModels poolSourceIds poolAccountIds : List String) (key : GatewayKeyRecord) (secret : String) :
    RuntimeKey :=
  { id := key.id
    enabled := key.enabled
    secret
    scope :=
      { sourceIds := some (normalizedSet poolSourceIds)
        accountIds := some (normalizedSet poolAccountIds) }
    modelRules := modelRules [] hiddenModels }

def validateKeys (keys : List RuntimeKey) : Except String Unit := do
  require (∀ key ∈ keys, trim key.id ≠ "") "gateway credential id must not be empty"
  require (∀ key ∈ keys, trim key.secret ≠ "") "gateway credential secret must not be empty"
  require ((keys.map (·.id)).Nodup) "gateway credential ids must be unique"

def allNativeWireApis : List WireApi := [.responses, .chatCompletions, .messages, .gemini]

/-- Some enabled key can reach a configured candidate. What is hidden does not count here. -/
def hasUsableKey (r : GatewayRuntime) (keys : List RuntimeKey) : Bool :=
  keys.any fun key => key.enabled && r.scheduler.candidates.values.any fun candidate =>
    decide (∃ model ∈ candidate.models, candidate.isConfigured model allNativeWireApis key.scope = true)

def validateReachability (r : GatewayRuntime) (sourceIds : List String) (keys : List RuntimeKey) : Except String Unit := do
  require (sourceIds ≠ [] ∨ r.chatgptAccounts ≠ ∅) "at least one provider source or OAuth account is required"
  require (keys.any (·.enabled) = true) "at least one enabled gateway credential is required"
  require (hasUsableKey r keys = true) "no enabled gateway credential can reach a configured source candidate"

def fromMixedPool (sources : List RuntimeSource) (accounts : List RuntimeChatGptAccount) (keys : List RuntimeKey)
    (settings : RuntimeSettings) : Except String ServerRuntime := do
  let policy := settings.routingPolicy
  require (1 ≤ policy.maxRetryCandidates ∧ policy.maxRetryCandidates ≤ 8) "max retry candidates must be between 1 and 8"
  require (1 ≤ policy.cooldownAfterFailures ∧ policy.cooldownAfterFailures ≤ 8)
    "cooldown after failures must be between 1 and 8"
  let reasoningLevels ← parts.reasoningAllowedLevels settings.modelReasoningAllowedLevels
  let planOrder ← parts.subscriptionPlanOrder policy.subscriptionPlanOrder
  let (gateway, sourceIds) ← sources.foldlM (addSource parts) (configureScheduler policy planOrder, [])
  let gateway ← accounts.foldlM (addAccount parts sourceIds) gateway
  validateKeys keys
  validateReachability gateway sourceIds keys
  let overrides ← parts.serviceTierOverrides settings.modelServiceTierOverrides
  .ok { gateway, sourceIds, keys,
        settings := { settings with modelReasoningAllowedLevels := reasoningLevels, modelServiceTierOverrides := overrides }
        directRefreshAccounts := (accounts.filter fun account => account.credential.hasOauth && account.proxy.isNone).map (·.record.id.text)
        refreshClients := accounts.filterMap fun account =>
          if account.credential.hasOauth then account.proxy.map fun proxy => (account.record.id.text, proxy) else none }

/-! ## `rebuild` -/

abbrev Rebuild := Reads ServerContent String

def loadSecret (secretRef : String) : Rebuild (Option String) := .get fun content => content.vault[secretRef]?

/-- The proxy of a stored reference: its text, or `none` where the record, the secret or its form is missing. -/
def proxyConfigById (proxyId : String) : Rebuild (Option String) := do
  match ← .get fun content => content.proxies.get? proxyId with
  | none => return none
  | some proxy => return (← loadSecret proxy.secretRef).filter parts.parseProxy

def commonProxySecretRef : String := "proxy:common"

/-- How an account reaches its provider: `none` where it must not, else through a proxy or directly. -/
def accountProxyConfig (record : ServerAccountRecord) (credential : AccountCredential) : Rebuild (Option (Option String)) := do
  match record.proxyId with
  | some proxyId => return (← proxyConfigById parts proxyId).map some
  | none =>
    if record.bypassCommonProxy then
      return if ← .get (·.accountProxyRequired) then none else some none
    else
      match credential.proxyUrl with
      | some value => return if parts.parseProxy value then some (some value) else none
      | none =>
        if !(← .get (·.commonProxyConfigured)) then
          return if ← .get (·.accountProxyRequired) then none else some none
        else
          match ← .get (·.commonProxyId) with
          | some proxyId => return (← proxyConfigById parts proxyId).map some
          | none => return ((← loadSecret commonProxySecretRef).filter parts.parseProxy).map some

def buildSources : List SourceRecord → Rebuild (List RuntimeSource)
  | [] => return []
  | record :: records => do
    match ← loadSecret record.secretRef with
    | none => buildSources records
    | some apiKey => return ⟨record, apiKey⟩ :: (← buildSources records)

/-- One account; `none` where it is left out. `nowMs` is the time at which it is looked at. -/
def buildAccount (nowMs : Nat) (record : ServerAccountRecord) : Rebuild (Option RuntimeChatGptAccount) := do
  match ← loadSecret record.secretRef with
  | none => return none
  | some secret =>
    match parts.parseCredential secret with
    | none => .failed "stored account credential is invalid"
    | some credential =>
      match ← accountProxyConfig parts record credential with
      | none => return none
      | some proxy =>
        let agentIdentity ← .ofExcept (credential.agentIdentity parts)
        if credential.hasOauth then .ofExcept (parts.validateTokens credential)
        return some (runtimeAccount record credential agentIdentity proxy nowMs)

def buildAccounts (now : String → Nat) : List ServerAccountRecord → Rebuild (List RuntimeChatGptAccount)
  | [] => return []
  | record :: records => do
    let account ← buildAccount parts (now record.id.text) record
    return account.toList ++ (← buildAccounts now records)

def hasActiveCandidate (sources : List RuntimeSource) (accounts : List RuntimeChatGptAccount) : Bool :=
  (sources.any fun source => source.record.enabled && !source.record.draining) ||
    accounts.any fun account => account.enabled && !account.record.draining

/-- `pool_member_ids` and `retain_active_pool_members`: the members of the pool that are there and active. -/
def activePoolSources (records : List SourceRecord) (sources : List RuntimeSource) : List String :=
  ((records.filter fun record => record.isPoolMember parts).map (·.id.text)).filter fun id =>
    sources.any fun source => source.record.enabled && !source.record.draining && source.record.id.text = id

def activePoolAccounts (records : List ServerAccountRecord) (accounts : List RuntimeChatGptAccount) : List String :=
  ((records.filter (·.inPool)).map (·.id.text)).filter fun id =>
    accounts.any fun account => account.enabled && !account.record.draining && account.record.id.text = id

/-- Without any member in the pool there are no keys either. -/
def buildKeys (hiddenModels poolSourceIds poolAccountIds : List String) : List GatewayKeyRecord → Rebuild (List RuntimeKey)
  | [] => return []
  | key :: keys => do
    match ← loadSecret key.secretRef with
    | none => buildKeys hiddenModels poolSourceIds poolAccountIds keys
    | some secret =>
      let rest ← buildKeys hiddenModels poolSourceIds poolAccountIds keys
      return if poolSourceIds = [] && poolAccountIds = [] then rest
        else runtimeKey hiddenModels poolSourceIds poolAccountIds key secret :: rest

def readSettings : Rebuild RuntimeSettings := do
  let hiddenModels ← .get (·.settings.hiddenModels)
  let modelReasoningAllowedLevels ← .get (·.settings.modelReasoningAllowedLevels)
  let modelServiceTierOverrides ← .get (·.settings.modelServiceTierOverrides)
  let modelDisplayOrder ← .get (·.settings.modelDisplayOrder)
  let routingPolicy ← .get (·.settings.routingPolicy)
  let codexBackgroundTasksEnabled ← .get (·.settings.codexBackgroundTasksEnabled)
  let codexWebsocketsEnabled ← .get (·.settings.codexWebsocketsEnabled)
  return { hiddenModels, modelReasoningAllowedLevels, modelServiceTierOverrides, modelDisplayOrder, routingPolicy,
           codexBackgroundTasksEnabled, codexWebsocketsEnabled }

/-- `rebuild`, up to `replace_runtime`. -/
def rebuild (now : String → Nat) : Rebuild (Option ServerRuntime) := do
  let sourceRecords ← .get (·.sources.all)
  let accountRecords ← .get (·.accounts.all)
  let keyRecords ← .get fun content => content.keys.all.filter fun key => key.enabled && isInternalGatewayKey key
  let settings ← readSettings
  if keyRecords = [] ∨ (sourceRecords = [] ∧ accountRecords = []) then return none
  else
    let sources ← buildSources sourceRecords
    let accounts ← buildAccounts parts now accountRecords
    if !hasActiveCandidate sources accounts then return none
    else
      let keys ← buildKeys settings.hiddenModels (activePoolSources parts sourceRecords sources)
        (activePoolAccounts accountRecords accounts) keyRecords
      if keys = [] ∨ (sources = [] ∧ accounts = []) then return none
      else return some (← .ofExcept (fromMixedPool parts sources accounts keys settings))

end

end Zenith.Server
