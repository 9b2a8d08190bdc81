import Mathlib
import Zenith.Lib.Json
import Zenith.Quota.SnapshotJson
import Zenith.Server.RuntimeBuild

/-!
# Preset settings

`ConfigurationPresetSettings` of `protocol/management.rs` and its members, with their `Serialize`. Optional members of a
rule are left out when there are none; the three later members of the settings are there only when they are present.
-/

namespace Zenith.Presets

open Json Zenith.Quota Zenith.Scheduler Zenith.Server

structure ApiModelPriceOverride where
  inputMicroUsdPerMillion : Nat
  cachedInputMicroUsdPerMillion : Option Nat := none
  cacheWrite5mMicroUsdPerMillion : Option Nat := none
  cacheWrite1hMicroUsdPerMillion : Option Nat := none
  outputMicroUsdPerMillion : Nat
deriving DecidableEq, Repr

structure SourcePresetRule where
  id : String
  name : String
  baseUrl : String
  pricingProvider : Option String := none
  officialProviderFamily : Option String := none
  wireApi : WireApi
  protocolBindings : List SourceProtocolBinding := []
  enabled : Bool
  inPool : Bool
  allowedModels : List String := []
  excludedModels : List String := []
  priority : Int
  weight : Nat
  recoveryDelaySeconds : Nat := 0
  modelPriceOverrides : List (String × ApiModelPriceOverride) := []
deriving DecidableEq, Repr

structure AccountPresetRule where
  id : String
  identityHint : String
  enabled : Bool
  inPool : Bool
  allowedModels : List String := []
  excludedModels : List String := []
  priority : Int
  weight : Nat
  proxyId : Option String := none
  bypassCommonProxy : Bool := false
deriving DecidableEq, Repr

structure PresetRoutingPolicy where
  maxRetryCandidates : Nat
  cooldownAfterFailures : Nat
  keepLastCandidateAvailable : Bool
  routingStrategy : RoutingStrategy
  subscriptionPlanOrder : List String
  defaultServiceTier : DefaultServiceTier
  imageBaseModel : Option String
deriving DecidableEq, Repr

structure PresetQuotaPolicy where
  requestTimeoutSeconds : Nat
  accountProxyRequired : Bool
  commonProxyId : Option String
deriving DecidableEq, Repr

structure ConfigurationPresetSettings where
  sources : List SourcePresetRule
  accounts : List AccountPresetRule
  routing : PresetRoutingPolicy
  quota : PresetQuotaPolicy
  hiddenModels : List String
  modelPriceOverrides : List (String × ApiModelPriceOverride)
  modelReasoningAllowedLevels : List (String × List String)
  modelServiceTierOverrides : List (String × DefaultServiceTier)
  modelDisplayOrder : List String
  modelReasoningAllowedLevelsPresent : Bool
  modelServiceTierOverridesPresent : Bool
  modelDisplayOrderPresent : Bool
deriving DecidableEq, Repr

/-! ## Serialization -/

def ofInt : Int → Json
  | .ofNat n => .number (.nat n)
  | .negSucc n => .number (.negSucc n)

def ofStrings (texts : List String) : Json := .array (texts.map .string)

/-- A `BTreeMap` of the settings. -/
def ofMap {α : Type} (toJson : α → Json) (entries : List (String × α)) : Json :=
  .ofFields (entries.map fun entry => (entry.1, toJson entry.2))

/-- A member that is skipped when there is none. -/
def optionalMember {α : Type} (toJson : α → Json) (key : String) (value : Option α) : Fields :=
  match value with
  | some value => [(key, toJson value)]
  | none => []

def WireApi.asStr : WireApi → String
  | .responses => "responses"
  | .chatCompletions => "chat_completions"
  | .messages => "messages"
  | .gemini => "gemini"

def SourceAdapter.asStr : SourceAdapter → String
  | .native => "native"
  | .responsesToMessages => "responses_to_messages"
  | .responsesToGemini => "responses_to_gemini"

def MessagesReasoningMode.asStr : MessagesReasoningMode → String
  | .disabled => "disabled"
  | .budget => "budget"
  | .adaptive => "adaptive"

def CacheWriteTtl.asStr : CacheWriteTtl → String
  | .provider => "provider"
  | .fiveMinutes => "5m"
  | .oneHour => "1h"

def RoutingStrategy.asStr : RoutingStrategy → String
  | .adaptive => "adaptive"
  | .quotaHighest => "quota_highest"
  | .subscriptionExpiry => "subscription_expiry"
  | .subscriptionPlan => "subscription_plan"

def SourceProtocolBinding.toJson (binding : SourceProtocolBinding) : Json :=
  .ofFields <|
    [("wireApi", .string (WireApi.asStr binding.wireApi)),
      ("adapter", .string (SourceAdapter.asStr binding.adapter)),
      ("reasoningMode", .string (MessagesReasoningMode.asStr binding.reasoningMode))] ++
    (if binding.cacheWriteTtl = .provider then []
      else [("cacheWriteTtl", .string (CacheWriteTtl.asStr binding.cacheWriteTtl))]) ++
    [("modelIds", ofStrings binding.modelIds)]

def ApiModelPriceOverride.toJson (price : ApiModelPriceOverride) : Json :=
  .ofFields <|
    [("inputMicroUsdPerMillion", .ofNat price.inputMicroUsdPerMillion)] ++
    optionalMember .ofNat "cachedInputMicroUsdPerMillion" price.cachedInputMicroUsdPerMillion ++
    optionalMember .ofNat "cacheWrite5mMicroUsdPerMillion" price.cacheWrite5mMicroUsdPerMillion ++
    optionalMember .ofNat "cacheWrite1hMicroUsdPerMillion" price.cacheWrite1hMicroUsdPerMillion ++
    [("outputMicroUsdPerMillion", .ofNat price.outputMicroUsdPerMillion)]

def SourcePresetRule.toJson (rule : SourcePresetRule) : Json :=
  .ofFields <|
    [("id", .string rule.id), ("name", .string rule.name), ("baseUrl", .string rule.baseUrl)] ++
    optionalMember .string "pricingProvider" rule.pricingProvider ++
    optionalMember .string "officialProviderFamily" rule.officialProviderFamily ++
    [("wireApi", .string (WireApi.asStr rule.wireApi)),
      ("protocolBindings", .array (rule.protocolBindings.map SourceProtocolBinding.toJson)),
      ("enabled", .bool rule.enabled), ("inPool", .bool rule.inPool),
      ("allowedModels", ofStrings rule.allowedModels), ("excludedModels", ofStrings rule.excludedModels),
      ("priority", ofInt rule.priority), ("weight", .ofNat rule.weight),
      ("recoveryDelaySeconds", .ofNat rule.recoveryDelaySeconds),
      ("modelPriceOverrides", ofMap ApiModelPriceOverride.toJson rule.modelPriceOverrides)]

def AccountPresetRule.toJson (rule : AccountPresetRule) : Json :=
  .ofFields [
    ("id", .string rule.id), ("identityHint", .string rule.identityHint),
    ("enabled", .bool rule.enabled), ("inPool", .bool rule.inPool),
    ("allowedModels", ofStrings rule.allowedModels), ("excludedModels", ofStrings rule.excludedModels),
    ("priority", ofInt rule.priority), ("weight", .ofNat rule.weight),
    ("proxyId", .ofOption rule.proxyId), ("bypassCommonProxy", .bool rule.bypassCommonProxy)]

def PresetRoutingPolicy.toJson (policy : PresetRoutingPolicy) : Json :=
  .ofFields [
    ("maxRetryCandidates", .ofNat policy.maxRetryCandidates),
    ("cooldownAfterFailures", .ofNat policy.cooldownAfterFailures),
    ("keepLastCandidateAvailable", .bool policy.keepLastCandidateAvailable),
    ("routingStrategy", .string (RoutingStrategy.asStr policy.routingStrategy)),
    ("subscriptionPlanOrder", ofStrings policy.subscriptionPlanOrder),
    ("defaultServiceTier", policy.defaultServiceTier.toJson),
    ("imageBaseModel", .ofOption policy.imageBaseModel)]

def PresetQuotaPolicy.toJson (policy : PresetQuotaPolicy) : Json :=
  .ofFields [
    ("requestTimeoutSeconds", .ofNat policy.requestTimeoutSeconds),
    ("accountProxyRequired", .bool policy.accountProxyRequired),
    ("commonProxyId", .ofOption policy.commonProxyId)]

/-- A member that is there only when it is present. -/
def presentMember (present : Bool) (key : String) (value : Json) : Fields := if present then [(key, value)] else []

namespace ConfigurationPresetSettings

def members (settings : ConfigurationPresetSettings) : Fields :=
  [("sources", .array (settings.sources.map SourcePresetRule.toJson)),
    ("accounts", .array (settings.accounts.map AccountPresetRule.toJson)),
    ("routing", settings.routing.toJson),
    ("quota", settings.quota.toJson),
    ("hiddenModels", ofStrings settings.hiddenModels),
    ("modelPriceOverrides", ofMap ApiModelPriceOverride.toJson settings.modelPriceOverrides)] ++
  presentMember settings.modelServiceTierOverridesPresent "modelServiceTierOverrides"
    (ofMap DefaultServiceTier.toJson settings.modelServiceTierOverrides) ++
  presentMember settings.modelDisplayOrderPresent "modelDisplayOrder" (ofStrings settings.modelDisplayOrder) ++
  presentMember settings.modelReasoningAllowedLevelsPresent "modelReasoningAllowedLevels"
    (ofMap ofStrings settings.modelReasoningAllowedLevels)

def toJson (settings : ConfigurationPresetSettings) : Json := .ofFields settings.members

end ConfigurationPresetSettings

end Zenith.Presets
