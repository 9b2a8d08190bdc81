import Mathlib
import Zenith.Presets.ModelMaps

/-!
# Normalizing a preset

`normalize_configuration_preset` of `protocol/management.rs`, and `validate_configuration_settings` of the server's
`store/configuration/validation.rs`, which takes only what is normal.

Both loops over members are `normalizeMembers`. `NormalSource` and `NormalAccount` say what one member becomes, and
`Normalizes` what a preset becomes.
-/

namespace Zenith.Presets

open Zenith.Distinct Zenith.Quota Zenith.Scheduler Zenith.Server Zenith.Sources Zenith.Tables Zenith.Text

structure ConfigurationPreset where
  format : String
  schemaVersion : Nat
  settings : ConfigurationPresetSettings
deriving DecidableEq

/-- Code of the language and of other crates. -/
structure PresetParts where
  /-- `str::to_lowercase`. -/
  toLowercase : String → String
  /-- `Url::parse` reads an HTTP address with a host. -/
  validUrl : String → Bool

def configurationPresetFormat : String := "zenith-relay-configuration"

def configurationPresetSchemaVersion : Nat := 3

def minConfigurationPresetSchemaVersion : Nat := 2

def maxPresetMembers : Nat := 2048

def maxSourceRecoveryDelaySeconds : Nat := 24 * 60 * 60

/-! ## Routing -/

def collectPlans (toLowercase : String → String) : List String → List String → Except String (List String)
  | _, [] => .ok []
  | seen, plan :: values =>
    let value := toLowercase (trim plan)
    if value = "" ∨ (Bytes.utf8 value).length > 64 ∨ value.toList.any isControl = true then
      .error "subscription plan group is invalid"
    else if value ∈ seen then collectPlans toLowercase seen values
    else (collectPlans toLowercase (value :: seen) values).map (value :: ·)

def normalizeSubscriptionPlanOrder (toLowercase : String → String) (values : List String) : Except String (List String) :=
  if values.length > 64 then .error "subscription plan order contains too many groups"
  else collectPlans toLowercase [] values

def normalizeImageBaseModel : Option String → Except String (Option String)
  | none => .ok none
  | some model =>
    let value := trim model
    if value = "" ∨ eqIgnoreAsciiCase value "auto" = true then .ok none
    else if isValidModelId value = false then .error "image base model id is invalid"
    else .ok (some value)

/-! ## Members -/

def invalidPresetReference (value : String) : Bool :=
  value = "" || (Bytes.utf8 value).length > 128 ||
    !value.toList.all fun c => c.isAlphanum || c = '-' || c = '_' || c = '.'

/-- The loop over the members of a preset. `ids` are the ids before. -/
def normalizeMembers {ρ : Type} (idOf : ρ → String) (normalize : List String → ρ → Except String ρ) :
    List String → List ρ → Except String (List ρ)
  | _, [] => .ok []
  | ids, rule :: rules =>
    match normalize ids rule with
    | .error message => .error message
    | .ok normalized => (normalizeMembers idOf normalize (idOf rule :: ids) rules).map (normalized :: ·)

def sortById {ρ : Type} (idOf : ρ → String) (rules : List ρ) : List ρ := rules.mergeSort fun rule rule' => idOf rule ≤ idOf rule'

/-- `map_err` with a text before the message. -/
def withPrefix {α : Type} (text : String) (result : Except String α) : Except String α :=
  result.mapError fun message => text ++ message

def normalBaseUrl (baseUrl : String) : String := trimEndMatches (trim baseUrl) '/'

def normalizePresetBindings (bindings : List SourceProtocolBinding) (wireApi : WireApi) :
    Except String (List SourceProtocolBinding) :=
  if bindings = [] then .ok [] else normalizeSourceProtocolBindings bindings wireApi []

def normalizeSourcePresetRule (parts : PresetParts) (ids : List String) (rule : SourcePresetRule) :
    Except String SourcePresetRule :=
  if invalidPresetReference rule.id = true then .error "configuration preset source reference is invalid"
  else
    let name := trim rule.name
    let baseUrl := normalBaseUrl rule.baseUrl
    if rule.id ∈ ids ∨ rule.weight = 0 ∨ rule.recoveryDelaySeconds > maxSourceRecoveryDelaySeconds ∨ name = "" ∨
        (Bytes.utf8 name).length > 256 ∨ name.toList.any isControl = true ∨ parts.validUrl baseUrl = false then
      .error "configuration preset source rule is invalid"
    else do
      let allowedModels ← normalizePresetModelIds rule.allowedModels
      let excludedModels ← normalizePresetModelIds rule.excludedModels
      let modelPriceOverrides ← withPrefix "configuration preset " (normalizeModelPriceOverrides rule.modelPriceOverrides)
      let protocolBindings ← normalizePresetBindings rule.protocolBindings rule.wireApi
      return { rule with name, baseUrl, allowedModels, excludedModels, modelPriceOverrides, protocolBindings }

def normalizeSourcePresetRules (parts : PresetParts) (rules : List SourcePresetRule) : Except String (List SourcePresetRule) :=
  if rules.length > maxPresetMembers then .error "configuration preset contains too many sources"
  else (normalizeMembers (·.id) (normalizeSourcePresetRule parts) [] rules).map (sortById (·.id))

def normalizeAccountPresetRule (ids : List String) (rule : AccountPresetRule) : Except String AccountPresetRule :=
  if invalidPresetReference rule.id = true then .error "configuration preset account reference is invalid"
  else if rule.id ∈ ids ∨ rule.weight = 0 ∨ invalidPresetReference rule.identityHint = true ∨
      rule.proxyId.any invalidPresetReference = true ∨ (rule.proxyId.isSome = true ∧ rule.bypassCommonProxy = true) then
    .error "configuration preset account rule is invalid"
  else do
    let allowedModels ← normalizePresetModelIds rule.allowedModels
    let excludedModels ← normalizePresetModelIds rule.excludedModels
    return { rule with allowedModels, excludedModels }

def normalizeAccountPresetRules (rules : List AccountPresetRule) : Except String (List AccountPresetRule) :=
  if rules.length > maxPresetMembers then .error "configuration preset contains too many accounts"
  else (normalizeMembers (·.id) normalizeAccountPresetRule [] rules).map (sortById (·.id))

/-! ## Presets -/

def validRetryCount (count : Nat) : Bool := 1 ≤ count && count ≤ 8

def validRequestTimeout (seconds : Nat) : Bool := 10 ≤ seconds && seconds ≤ 20

def normalizeConfigurationPreset (parts : PresetParts) (preset : ConfigurationPreset) : Except String ConfigurationPreset :=
  let settings := preset.settings
  if preset.format ≠ configurationPresetFormat then .error "configuration preset format is unsupported"
  else if preset.schemaVersion < minConfigurationPresetSchemaVersion ∨ preset.schemaVersion > configurationPresetSchemaVersion then
    .error ("configuration preset schema " ++ toString preset.schemaVersion ++ " is unsupported")
  else do
    let sources ← normalizeSourcePresetRules parts settings.sources
    let accounts ← normalizeAccountPresetRules settings.accounts
    let subscriptionPlanOrder ← normalizeSubscriptionPlanOrder parts.toLowercase settings.routing.subscriptionPlanOrder
    let imageBaseModel ← normalizeImageBaseModel settings.routing.imageBaseModel
    if (validRetryCount settings.routing.maxRetryCandidates && validRetryCount settings.routing.cooldownAfterFailures &&
        validRequestTimeout settings.quota.requestTimeoutSeconds) = false then
      .error "configuration preset policy is invalid"
    else
      let hiddenModels ← normalizePresetModelIds settings.hiddenModels
      let modelPriceOverrides ← withPrefix "configuration preset " (normalizeModelPriceOverrides settings.modelPriceOverrides)
      let modelReasoningAllowedLevels ← withPrefix "configuration preset "
        (normalizeModelReasoningAllowedLevels settings.modelReasoningAllowedLevels)
      let modelServiceTierOverrides ← withPrefix "configuration preset "
        (normalizeModelServiceTierOverrides settings.modelServiceTierOverrides)
      return { preset with
        settings := { settings with
          sources, accounts, hiddenModels, modelPriceOverrides, modelReasoningAllowedLevels, modelServiceTierOverrides
          modelDisplayOrder := normalizeModelIds settings.modelDisplayOrder
          routing := { settings.routing with subscriptionPlanOrder, imageBaseModel } } }

/-! ## The checks of the store -/

def notNormalized : String := "configuration preset is not normalized"

/-- A value that must be normal already. -/
def requireNormal {α : Type} [DecidableEq α] (message : String) (normalized : Except String α) (value : α) :
    Except String Unit :=
  normalized.bind fun normal => if normal = value then .ok () else .error message

def validateQuotaRequestTimeout (requestTimeoutSeconds : Nat) : Except String Unit :=
  if validRequestTimeout requestTimeoutSeconds = false then .error "quota request timeout is invalid" else .ok ()

def validateRoutingPolicy (maxRetryCandidates cooldownAfterFailures : Nat) : Except String Unit :=
  if validRetryCount maxRetryCandidates = false then .error "max retry candidates is invalid"
  else if validRetryCount cooldownAfterFailures = false then .error "cooldown after failures is invalid"
  else .ok ()

/-- The loop over the members. `ids` are the ids before. -/
def validateMembers {ρ : Type} (idOf : ρ → String) (validate : List String → ρ → Except String Unit) :
    List String → List ρ → Except String Unit
  | _, [] => .ok ()
  | ids, rule :: rules => (validate ids rule).bind fun _ => validateMembers idOf validate (idOf rule :: ids) rules

def sourceRuleInvalid : String := "source preset rule is invalid"

def validateSourceRule (parts : PresetParts) (ids : List String) (rule : SourcePresetRule) : Except String Unit :=
  if rule.id = "" ∨ rule.id ∈ ids ∨ rule.weight = 0 ∨ rule.recoveryDelaySeconds > 24 * 60 * 60 ∨ rule.name = "" ∨
      (Bytes.utf8 rule.name).length > 256 ∨ rule.name.toList.any isControl = true ∨ parts.validUrl rule.baseUrl = false then
    .error sourceRuleInvalid
  else do
    requireNormal sourceRuleInvalid (normalizeValidatedModelIds rule.allowedModels) rule.allowedModels
    requireNormal sourceRuleInvalid (normalizeValidatedModelIds rule.excludedModels) rule.excludedModels
    requireNormal sourceRuleInvalid (normalizeModelPriceOverrides rule.modelPriceOverrides) rule.modelPriceOverrides

def accountRuleInvalid : String := "account preset rule is invalid"

def validateAccountRule (ids : List String) (rule : AccountPresetRule) : Except String Unit :=
  if rule.id = "" ∨ rule.id ∈ ids ∨ rule.weight = 0 ∨ rule.identityHint = "" ∨
      (Bytes.utf8 rule.identityHint).length > 128 ∨ rule.identityHint.toList.any isControl = true then
    .error accountRuleInvalid
  else do
    requireNormal accountRuleInvalid (normalizeValidatedModelIds rule.allowedModels) rule.allowedModels
    requireNormal accountRuleInvalid (normalizeValidatedModelIds rule.excludedModels) rule.excludedModels

def validateConfigurationSettings (parts : PresetParts) (settings : ConfigurationPresetSettings) : Except String Unit := do
  validateQuotaRequestTimeout settings.quota.requestTimeoutSeconds
  validateRoutingPolicy settings.routing.maxRetryCandidates settings.routing.cooldownAfterFailures
  requireNormal notNormalized (normalizeSubscriptionPlanOrder parts.toLowercase settings.routing.subscriptionPlanOrder)
    settings.routing.subscriptionPlanOrder
  requireNormal notNormalized (normalizeImageBaseModel settings.routing.imageBaseModel) settings.routing.imageBaseModel
  requireNormal notNormalized (normalizeValidatedModelIds settings.hiddenModels) settings.hiddenModels
  requireNormal notNormalized (normalizeModelPriceOverrides settings.modelPriceOverrides) settings.modelPriceOverrides
  requireNormal notNormalized (normalizeModelReasoningAllowedLevels settings.modelReasoningAllowedLevels)
    settings.modelReasoningAllowedLevels
  requireNormal notNormalized (normalizeModelServiceTierOverrides settings.modelServiceTierOverrides)
    settings.modelServiceTierOverrides
  requireNormal notNormalized (.ok (normalizeModelIds settings.modelDisplayOrder)) settings.modelDisplayOrder
  validateMembers (·.id) (validateSourceRule parts) [] settings.sources
  validateMembers (·.id) validateAccountRule [] settings.accounts

/-! ## Results -/

theorem map_eq_ok {α β : Type} {x : Except String α} {f : α → β} {b : β} : x.map f = .ok b ↔ ∃ a, x = .ok a ∧ f a = b := by
  cases x with
  | error message => exact ⟨nofun, nofun⟩
  | ok a => exact ⟨fun h => ⟨a, rfl, Except.ok.inj h⟩, fun ⟨_, ha, h⟩ => congrArg Except.ok (Except.ok.inj ha ▸ h)⟩

theorem withPrefix_eq_ok {α : Type} {text : String} {x : Except String α} {a : α} : withPrefix text x = .ok a ↔ x = .ok a := by
  cases x with
  | error message => exact ⟨nofun, nofun⟩
  | ok a' => exact Iff.rfl

theorem requireNormal_of_ok {α : Type} [DecidableEq α] {message : String} {value : α} {normalized : Except String α}
    (h : normalized = .ok value) : requireNormal message normalized value = .ok () := by
  rw [h]
  exact if_pos rfl

/-! ## Members, one by one -/

section
variable {ρ : Type} {idOf : ρ → String} {normalize : List String → ρ → Except String ρ} {Normal : ρ → ρ → Prop}

theorem normalizeMembers_eq_ok (hnormalize : ∀ ids rule result, normalize ids rule = .ok result ↔ idOf rule ∉ ids ∧ Normal rule result)
    {ids : List String} {rules result : List ρ} :
    normalizeMembers idOf normalize ids rules = .ok result ↔
      List.Forall₂ Normal rules result ∧ (rules.map idOf).Nodup ∧ ∀ rule ∈ rules, idOf rule ∉ ids := by
  induction rules generalizing ids result with
  | nil =>
    refine ⟨fun h => ?_, fun h => ?_⟩
    · obtain rfl := Except.ok.inj h
      exact ⟨.nil, List.nodup_nil, nofun⟩
    · rw [List.forall₂_nil_left_iff.mp h.1, normalizeMembers]
  | cons rule rules ih =>
    rw [normalizeMembers]
    cases hrule : normalize ids rule with
    | error message =>
      refine ⟨nofun, fun h => ?_⟩
      obtain ⟨first, rest, hfirst, -, rfl⟩ := List.forall₂_cons_left_iff.mp h.1
      exact nomatch hrule.symm.trans ((hnormalize ids rule first).mpr ⟨h.2.2 rule List.mem_cons_self, hfirst⟩)
    | ok normalized =>
      obtain ⟨hnew, hnormal⟩ := (hnormalize ids rule normalized).mp hrule
      have hids : ∀ {result}, (List.Forall₂ Normal rules result ∧ (rules.map idOf).Nodup ∧
          ∀ other ∈ rules, idOf other ∉ idOf rule :: ids) ↔ List.Forall₂ Normal rules result ∧
          ((rule :: rules).map idOf).Nodup ∧ ∀ other ∈ rules, idOf other ∉ ids := by
        intro result
        rw [List.map_cons, List.nodup_cons]
        refine and_congr_right fun _ => ⟨fun h => ⟨⟨fun hmem => ?_, h.1⟩, fun other hother hmem => ?_⟩, fun h => ⟨h.1.2, fun other hother hmem => ?_⟩⟩
        · obtain ⟨other, hother, heq⟩ := List.mem_map.mp hmem
          exact h.2 other hother (heq ▸ List.mem_cons_self)
        · exact h.2 other hother (List.mem_cons_of_mem _ hmem)
        · rcases List.mem_cons.mp hmem with heq | hmem
          · exact h.1.1 (heq ▸ List.mem_map_of_mem hother)
          · exact h.2 other hother hmem
      constructor
      · intro h
        obtain ⟨rest, hrest, rfl⟩ := map_eq_ok.mp h
        obtain ⟨hrules, hnodup, hseen⟩ := hids.mp (ih.mp hrest)
        exact ⟨.cons hnormal hrules, hnodup, List.forall_mem_cons.mpr ⟨hnew, hseen⟩⟩
      · rintro ⟨hrules, hnodup, hseen⟩
        obtain ⟨first, rest, hfirst, hrest, rfl⟩ := List.forall₂_cons_left_iff.mp hrules
        have hsame := (hnormalize ids rule first).mpr ⟨hnew, hfirst⟩
        obtain rfl := Except.ok.inj (hrule.symm.trans hsame)
        exact map_eq_ok.mpr ⟨rest, ih.mpr (hids.mpr ⟨hrest, hnodup, (List.forall_mem_cons.mp hseen).2⟩), rfl⟩

theorem perm_sortById (idOf : ρ → String) (rules : List ρ) : (sortById idOf rules).Perm rules := List.mergeSort_perm _ _

/-- Rules with different ids are sorted alike, however they came. -/
theorem sortById_perm {rules rules' : List ρ} (hnodup : (rules.map idOf).Nodup) (hperm : rules.Perm rules') :
    sortById idOf rules = sortById idOf rules' := by
  have hsorted : ∀ {rules : List ρ}, (rules.map idOf).Nodup →
      (sortById idOf rules).Pairwise fun rule rule' => idOf rule < idOf rule' := by
    intro rules hnodup
    have hle : (sortById idOf rules).Pairwise fun rule rule' => idOf rule ≤ idOf rule' :=
      (List.pairwise_mergeSort (fun _ _ _ hle hle' => decide_eq_true ((of_decide_eq_true hle).trans (of_decide_eq_true hle')))
        (fun rule rule' => by simpa using le_total (idOf rule) (idOf rule')) rules).imp of_decide_eq_true
    have hne : (sortById idOf rules).Pairwise fun rule rule' => idOf rule ≠ idOf rule' :=
      List.pairwise_map.mp (((perm_sortById idOf rules).map idOf).nodup_iff.mpr hnodup)
    exact hle.imp₂ (fun _ _ hle hne => lt_of_le_of_ne hle hne) hne
  refine List.Perm.eq_of_pairwise (fun _ _ _ _ hlt hgt => absurd (hlt.trans hgt) (lt_irrefl _)) (hsorted hnodup)
    (hsorted ((hperm.map idOf).nodup_iff.mp hnodup)) ?_
  exact (perm_sortById idOf rules).trans (hperm.trans (perm_sortById idOf rules').symm)

/-- What the rules of a preset are turned into. -/
structure NormalMembers (idOf : ρ → String) (Normal : ρ → ρ → Prop) (rules result : List ρ) : Prop where
  length : rules.length ≤ maxPresetMembers
  nodup : (rules.map idOf).Nodup
  sorted : ∃ normal, List.Forall₂ Normal rules normal ∧ result = sortById idOf normal

theorem normalMembers_iff (hnormalize : ∀ ids rule result, normalize ids rule = .ok result ↔ idOf rule ∉ ids ∧ Normal rule result)
    {message : String} {rules result : List ρ} :
    (if rules.length > maxPresetMembers then .error message
      else (normalizeMembers idOf normalize [] rules).map (sortById idOf)) = .ok result ↔
      NormalMembers idOf Normal rules result := by
  split
  case isTrue hlong => exact ⟨nofun, fun h => absurd h.length (Nat.not_le_of_gt hlong)⟩
  case isFalse hshort =>
    rw [map_eq_ok]
    constructor
    · rintro ⟨normal, hnormal, rfl⟩
      obtain ⟨hrules, hnodup, -⟩ := (normalizeMembers_eq_ok hnormalize).mp hnormal
      exact ⟨Nat.le_of_not_gt hshort, hnodup, normal, hrules, rfl⟩
    · rintro ⟨-, hnodup, normal, hrules, rfl⟩
      exact ⟨normal, (normalizeMembers_eq_ok hnormalize).mpr ⟨hrules, hnodup, fun _ _ => List.not_mem_nil⟩, rfl⟩

section
variable {rules rules' result : List ρ}

theorem map_id_of_forall₂ {normal : List ρ} (h : List.Forall₂ Normal rules normal)
    (hid : ∀ rule result, Normal rule result → idOf result = idOf rule) : normal.map idOf = rules.map idOf := by
  induction h with
  | nil => rfl
  | cons hrule _ ih => rw [List.map_cons, List.map_cons, hid _ _ hrule, ih]

theorem exists_normal_of_mem {normal : List ρ} (h : List.Forall₂ Normal rules normal) {member : ρ} (hmember : member ∈ normal) :
    ∃ rule ∈ rules, Normal rule member := by
  induction h with
  | nil => exact nomatch hmember
  | @cons rule first rules rest hfirst _ ih =>
    rcases List.mem_cons.mp hmember with rfl | hmember
    · exact ⟨rule, List.mem_cons_self, hfirst⟩
    · obtain ⟨other, hother, hnormal⟩ := ih hmember
      exact ⟨other, List.mem_cons_of_mem rule hother, hnormal⟩

theorem NormalMembers.nodup_result (h : NormalMembers idOf Normal rules result)
    (hid : ∀ rule result, Normal rule result → idOf result = idOf rule) : (result.map idOf).Nodup := by
  obtain ⟨normal, hnormal, rfl⟩ := h.sorted
  rw [((perm_sortById idOf normal).map idOf).nodup_iff, map_id_of_forall₂ hnormal hid]
  exact h.nodup

theorem NormalMembers.exists_of_mem (h : NormalMembers idOf Normal rules result) {member : ρ} (hmember : member ∈ result) :
    ∃ rule ∈ rules, Normal rule member := by
  obtain ⟨normal, hnormal, rfl⟩ := h.sorted
  exact exists_normal_of_mem hnormal ((perm_sortById idOf normal).mem_iff.mp hmember)

theorem NormalMembers.idem (h : NormalMembers idOf Normal rules result)
    (hid : ∀ rule result, Normal rule result → idOf result = idOf rule)
    (hidem : ∀ rule ∈ rules, ∀ result, Normal rule result → Normal result result) :
    NormalMembers idOf Normal result result := by
  have hnodup := h.nodup_result hid
  refine ⟨?_, hnodup, result, ?_, ?_⟩
  · obtain ⟨normal, hnormal, rfl⟩ := h.sorted
    rw [(perm_sortById idOf normal).length_eq, ← hnormal.length_eq]
    exact h.length
  · refine List.forall₂_same.mpr fun member hmember => ?_
    obtain ⟨rule, hrule, hnormal⟩ := h.exists_of_mem hmember
    exact hidem rule hrule member hnormal
  · obtain ⟨normal, hnormal, rfl⟩ := h.sorted
    exact sortById_perm ((List.Perm.map idOf (perm_sortById idOf normal)).nodup_iff.mp hnodup) (perm_sortById idOf normal).symm

end

/-- Lists that are the same up to their order and up to `like`. -/
def LikeMembers (like : ρ → ρ → Prop) (rules rules' : List ρ) : Prop := ∃ middle, rules'.Perm middle ∧ List.Forall₂ like rules middle

theorem LikeMembers.symm {like : ρ → ρ → Prop} (hsymm : ∀ rule rule', like rule rule' → like rule' rule) {rules rules' : List ρ}
    (h : LikeMembers like rules rules') : LikeMembers like rules' rules := by
  obtain ⟨middle, hperm, hlike⟩ := h
  have hflip : List.Forall₂ like middle rules := hlike.flip.imp fun rule rule' => hsymm rule' rule
  obtain ⟨middle', hlike', hperm'⟩ := List.perm_comp_forall₂ hperm hflip
  exact ⟨middle', hperm'.symm, hlike'⟩

theorem NormalMembers.of_like {like : ρ → ρ → Prop} {rules rules' result : List ρ} (hlike : LikeMembers like rules rules')
    (hnormal : ∀ rule rule' result, like rule rule' → Normal rule result → Normal rule' result)
    (hid : ∀ rule result, Normal rule result → idOf result = idOf rule)
    (h : NormalMembers idOf Normal rules result) : NormalMembers idOf Normal rules' result := by
  obtain ⟨middle, hperm, hmiddle⟩ := hlike
  obtain ⟨hlength, hnodup, normal, hrules, rfl⟩ := h
  have hnormals : List.Forall₂ Normal middle normal := by
    clear hperm hlength hnodup
    induction hmiddle generalizing normal with
    | nil =>
      rw [List.forall₂_nil_left_iff.mp hrules]
      exact .nil
    | cons hrule _ ih =>
      obtain ⟨first, rest, hfirst, hrest, rfl⟩ := List.forall₂_cons_left_iff.mp hrules
      exact .cons (hnormal _ _ _ hrule hfirst) (ih rest hrest)
  obtain ⟨normal', hnormal', hperm'⟩ := List.perm_comp_forall₂ hperm hnormals
  have hids : (normal.map idOf).Nodup := map_id_of_forall₂ hrules hid ▸ hnodup
  have hids' : (normal'.map idOf).Nodup := (hperm'.map idOf).nodup_iff.mpr hids
  refine ⟨?_, map_id_of_forall₂ hnormal' hid ▸ hids', normal', hnormal', (sortById_perm hids' hperm').symm⟩
  rw [hperm.length_eq, ← hmiddle.length_eq]
  exact hlength

end

/-- What a source rule is turned into. -/
structure NormalSource (parts : PresetParts) (rule result : SourcePresetRule) : Prop where
  reference : invalidPresetReference rule.id = false
  weight : rule.weight ≠ 0
  recovery : rule.recoveryDelaySeconds ≤ maxSourceRecoveryDelaySeconds
  name : trim rule.name ≠ "" ∧ (Bytes.utf8 (trim rule.name)).length ≤ 256 ∧ (trim rule.name).toList.any isControl = false
  url : parts.validUrl (normalBaseUrl rule.baseUrl) = true
  allowed : normalizePresetModelIds rule.allowedModels = .ok result.allowedModels
  excluded : normalizePresetModelIds rule.excludedModels = .ok result.excludedModels
  prices : normalizeModelPriceOverrides rule.modelPriceOverrides = .ok result.modelPriceOverrides
  bindings : normalizePresetBindings rule.protocolBindings rule.wireApi = .ok result.protocolBindings
  rest : result = { rule with
    name := trim rule.name
    baseUrl := normalBaseUrl rule.baseUrl
    allowedModels := result.allowedModels
    excludedModels := result.excludedModels
    modelPriceOverrides := result.modelPriceOverrides
    protocolBindings := result.protocolBindings }

/-- What an account rule is turned into. -/
structure NormalAccount (rule result : AccountPresetRule) : Prop where
  reference : invalidPresetReference rule.id = false
  weight : rule.weight ≠ 0
  identityHint : invalidPresetReference rule.identityHint = false
  proxy : rule.proxyId.any invalidPresetReference = false
  bypass : ¬(rule.proxyId.isSome = true ∧ rule.bypassCommonProxy = true)
  allowed : normalizePresetModelIds rule.allowedModels = .ok result.allowedModels
  excluded : normalizePresetModelIds rule.excludedModels = .ok result.excludedModels
  rest : result = { rule with allowedModels := result.allowedModels, excludedModels := result.excludedModels }

section
variable {parts : PresetParts} {ids : List String}

theorem normalizeSourcePresetRule_eq_ok (ids : List String) (rule result : SourcePresetRule) :
    normalizeSourcePresetRule parts ids rule = .ok result ↔ rule.id ∉ ids ∧ NormalSource parts rule result := by
  rw [normalizeSourcePresetRule]
  cases hreference : invalidPresetReference rule.id with
  | true => exact ⟨nofun, fun h => absurd hreference (ne_true_of_eq_false h.2.reference)⟩
  | false =>
    rw [if_neg Bool.noConfusion]
    dsimp only
    split
    case isTrue hinvalid =>
      refine ⟨nofun, fun ⟨hnew, h⟩ => ?_⟩
      rcases hinvalid with hseen | hweight | hrecovery | hblank | hlong | hcontrol | hurl
      · exact absurd hseen hnew
      · exact absurd hweight h.weight
      · exact absurd h.recovery (Nat.not_le_of_gt hrecovery)
      · exact absurd hblank h.name.1
      · exact absurd h.name.2.1 (Nat.not_le_of_gt hlong)
      · exact absurd hcontrol (ne_true_of_eq_false h.name.2.2)
      · exact absurd h.url (ne_true_of_eq_false hurl)
    case isFalse hvalid =>
      simp only [not_or, Nat.not_lt, gt_iff_lt, Bool.not_eq_true, Bool.not_eq_false] at hvalid
      obtain ⟨hnew, hweight, hrecovery, hblank, hlong, hcontrol, hurl⟩ := hvalid
      constructor
      · intro h
        obtain ⟨allowed, hallowed, h⟩ := bind_eq_ok.mp h
        obtain ⟨excluded, hexcluded, h⟩ := bind_eq_ok.mp h
        obtain ⟨prices, hprices, h⟩ := bind_eq_ok.mp h
        obtain ⟨bindings, hbindings, h⟩ := bind_eq_ok.mp h
        obtain rfl := Except.ok.inj h
        exact ⟨hnew, hreference, hweight, hrecovery, ⟨hblank, hlong, hcontrol⟩, hurl, hallowed, hexcluded,
          withPrefix_eq_ok.mp hprices, hbindings, rfl⟩
      · rintro ⟨-, h⟩
        refine bind_eq_ok.mpr ⟨_, h.allowed, bind_eq_ok.mpr ⟨_, h.excluded, bind_eq_ok.mpr ⟨_, withPrefix_eq_ok.mpr h.prices, ?_⟩⟩⟩
        exact bind_eq_ok.mpr ⟨_, h.bindings, congrArg Except.ok h.rest.symm⟩

theorem normalizeAccountPresetRule_eq_ok (ids : List String) (rule result : AccountPresetRule) :
    normalizeAccountPresetRule ids rule = .ok result ↔ rule.id ∉ ids ∧ NormalAccount rule result := by
  rw [normalizeAccountPresetRule]
  cases hreference : invalidPresetReference rule.id with
  | true => exact ⟨nofun, fun h => absurd hreference (ne_true_of_eq_false h.2.reference)⟩
  | false =>
    rw [if_neg Bool.noConfusion]
    split
    case isTrue hinvalid =>
      refine ⟨nofun, fun ⟨hnew, h⟩ => ?_⟩
      rcases hinvalid with hseen | hweight | hhint | hproxy | hbypass
      · exact absurd hseen hnew
      · exact absurd hweight h.weight
      · exact absurd hhint (ne_true_of_eq_false h.identityHint)
      · exact absurd hproxy (ne_true_of_eq_false h.proxy)
      · exact absurd hbypass h.bypass
    case isFalse hvalid =>
      simp only [not_or, Bool.not_eq_true] at hvalid
      obtain ⟨hnew, hweight, hhint, hproxy, hbypass⟩ := hvalid
      constructor
      · intro h
        obtain ⟨allowed, hallowed, h⟩ := bind_eq_ok.mp h
        obtain ⟨excluded, hexcluded, h⟩ := bind_eq_ok.mp h
        obtain rfl := Except.ok.inj h
        exact ⟨hnew, hreference, hweight, hhint, hproxy, by simpa using hbypass, hallowed, hexcluded, rfl⟩
      · rintro ⟨-, h⟩
        exact bind_eq_ok.mpr ⟨_, h.allowed, bind_eq_ok.mpr ⟨_, h.excluded, congrArg Except.ok h.rest.symm⟩⟩

/-! ## Normal forms of members -/

theorem normalizePresetBindings_idem {bindings result : List SourceProtocolBinding} {wireApi : WireApi}
    (h : normalizePresetBindings bindings wireApi = .ok result) : normalizePresetBindings result wireApi = .ok result := by
  unfold normalizePresetBindings at h ⊢
  split at h
  case isTrue =>
    obtain rfl := Except.ok.inj h
    exact if_pos rfl
  case isFalse =>
    split
    case isTrue hnil => rw [hnil]
    case isFalse => exact normalize_idem h wireApi

/-- An address that keeps its end when the slashes there are gone. -/
def SettledUrl (baseUrl : String) : Prop := trim (normalBaseUrl baseUrl) = normalBaseUrl baseUrl

theorem NormalSource.idem {rule result : SourcePresetRule} (h : NormalSource parts rule result) (hurl : SettledUrl rule.baseUrl) :
    NormalSource parts result result := by
  have hbaseUrl : normalBaseUrl (normalBaseUrl rule.baseUrl) = normalBaseUrl rule.baseUrl := by
    rw [normalBaseUrl, show trim (normalBaseUrl rule.baseUrl) = normalBaseUrl rule.baseUrl from hurl, normalBaseUrl,
      trimEndMatches_idem]
  obtain ⟨hreference, hweight, hrecovery, hname, hvalid, hallowed, hexcluded, hprices, hbindings, hrest⟩ := h
  rw [hrest]
  refine ⟨hreference, hweight, hrecovery, ?_, ?_, checkModelIds_idem hallowed _ _, checkModelIds_idem hexcluded _ _,
    normalizeModelMap_idem stable_checkPriceOverride hprices, normalizePresetBindings_idem hbindings, ?_⟩
  · rw [trim_trim]
    exact hname
  · rw [hbaseUrl]
    exact hvalid
  · dsimp only
    rw [trim_trim, hbaseUrl]

theorem NormalAccount.idem {rule result : AccountPresetRule} (h : NormalAccount rule result) : NormalAccount result result := by
  obtain ⟨hreference, hweight, hhint, hproxy, hbypass, hallowed, hexcluded, hrest⟩ := h
  rw [hrest]
  exact ⟨hreference, hweight, hhint, hproxy, hbypass, checkModelIds_idem hallowed _ _, checkModelIds_idem hexcluded _ _, rfl⟩

theorem NormalSource.id_eq {rule result : SourcePresetRule} (h : NormalSource parts rule result) : result.id = rule.id := by
  rw [h.rest]

theorem NormalAccount.id_eq {rule result : AccountPresetRule} (h : NormalAccount rule result) : result.id = rule.id := by
  rw [h.rest]

/-- References are visible characters only. -/
theorem valid_of_reference {value : String} (h : invalidPresetReference value = false) :
    value ≠ "" ∧ (Bytes.utf8 value).length ≤ 128 ∧ value.toList.any isControl = false := by
  simp only [invalidPresetReference, Bool.or_eq_false_iff, decide_eq_false_iff_not, Bool.not_eq_false', Nat.not_lt] at h
  obtain ⟨⟨hne, hlength⟩, hall⟩ := h
  refine ⟨hne, hlength, List.any_eq_false.mpr fun c hc hcontrol => ?_⟩
  have hvisible : 45 ≤ c.toNat ∧ c.toNat ≤ 122 := by
    have hc := List.all_eq_true.mp hall c hc
    simp only [Bool.or_eq_true, decide_eq_true_eq] at hc
    rcases hc with ((hc | rfl) | rfl) | rfl
    · exact ⟨le_trans (by decide) (toNat_of_isAlphanum hc).1, (toNat_of_isAlphanum hc).2⟩
    all_goals decide
  simp only [isControl, Bool.or_eq_true, Bool.and_eq_true, decide_eq_true_eq] at hcontrol
  omega

theorem NormalSource.validate {rule result : SourcePresetRule} (h : NormalSource parts rule result) (hnew : result.id ∉ ids) :
    validateSourceRule parts ids result = .ok () := by
  obtain ⟨hreference, hweight, hrecovery, ⟨hblank, hlong, hcontrol⟩, hvalid, hallowed, hexcluded, hprices, -, hrest⟩ := h
  rw [hrest] at hnew ⊢
  rw [validateSourceRule, if_neg]
  · refine bind_eq_ok.mpr ⟨(), requireNormal_of_ok (checkModelIds_idem hallowed _ _), ?_⟩
    refine bind_eq_ok.mpr ⟨(), requireNormal_of_ok (checkModelIds_idem hexcluded _ _), ?_⟩
    exact requireNormal_of_ok (normalizeModelMap_idem stable_checkPriceOverride hprices)
  · rintro (hid | hid | hid | hid | hid | hid | hid | hid)
    · exact (valid_of_reference hreference).1 hid
    · exact hnew hid
    · exact hweight hid
    · exact absurd hrecovery (Nat.not_le_of_gt hid)
    · exact hblank hid
    · exact absurd hlong (Nat.not_le_of_gt hid)
    · exact absurd hid (ne_true_of_eq_false hcontrol)
    · exact absurd hvalid (ne_true_of_eq_false hid)

theorem NormalAccount.validate {rule result : AccountPresetRule} (h : NormalAccount rule result) (hnew : result.id ∉ ids) :
    validateAccountRule ids result = .ok () := by
  obtain ⟨hreference, hweight, hhint, -, -, hallowed, hexcluded, hrest⟩ := h
  obtain ⟨hblank, hlong, hcontrol⟩ := valid_of_reference hhint
  rw [hrest] at hnew ⊢
  rw [validateAccountRule, if_neg]
  · refine bind_eq_ok.mpr ⟨(), requireNormal_of_ok (checkModelIds_idem hallowed _ _), ?_⟩
    exact requireNormal_of_ok (checkModelIds_idem hexcluded _ _)
  · rintro (hid | hid | hid | hid | hid | hid)
    · exact (valid_of_reference hreference).1 hid
    · exact hnew hid
    · exact hweight hid
    · exact hblank hid
    · exact absurd hlong (Nat.not_le_of_gt hid)
    · exact absurd hid (ne_true_of_eq_false hcontrol)

theorem validateMembers_of_normal {ρ : Type} {idOf : ρ → String} {validate : List String → ρ → Except String Unit}
    {rules : List ρ} (hvalidate : ∀ rule ∈ rules, ∀ ids, idOf rule ∉ ids → validate ids rule = .ok ())
    (hnodup : (rules.map idOf).Nodup) (hnew : ∀ rule ∈ rules, idOf rule ∉ ids) :
    validateMembers idOf validate ids rules = .ok () := by
  induction rules generalizing ids with
  | nil => rfl
  | cons rule rules ih =>
    obtain ⟨hrule, hrules⟩ := List.forall_mem_cons.mp hvalidate
    obtain ⟨hid, hids⟩ := List.forall_mem_cons.mp hnew
    obtain ⟨hdistinct, hnodup⟩ := List.nodup_cons.mp hnodup
    rw [validateMembers, hrule ids hid]
    refine ih hrules hnodup fun other hother hmem => ?_
    rcases List.mem_cons.mp hmem with heq | hmem
    · exact hdistinct (heq ▸ List.mem_map_of_mem hother)
    · exact hids other hother hmem

/-! ## Routing -/

section
variable {toLowercase : String → String} {model model' : Option String}

theorem normalizeImageBaseModel_idem (h : normalizeImageBaseModel model = .ok model') :
    normalizeImageBaseModel model' = .ok model' := by
  cases model with
  | none =>
    obtain rfl := Except.ok.inj h
    rfl
  | some text =>
    rw [normalizeImageBaseModel] at h
    split at h
    case isTrue =>
      obtain rfl := Except.ok.inj h
      rfl
    case isFalse hauto =>
      split at h
      case isTrue => exact nomatch h
      case isFalse hvalid =>
        obtain rfl := Except.ok.inj h
        rw [normalizeImageBaseModel, trim_trim, if_neg hauto, if_neg hvalid]

/-- What `to_lowercase` does not do: it has nothing more to change in its result, and adds no white space around a text. -/
structure LowercaseLaws (toLowercase : String → String) : Prop where
  idem : ∀ text, toLowercase (toLowercase text) = toLowercase text
  trimmed : ∀ text, trim (toLowercase (trim text)) = toLowercase (trim text)

def validPlan (value : String) : Prop :=
  value ≠ "" ∧ (Bytes.utf8 value).length ≤ 64 ∧ value.toList.any isControl = false

theorem collectPlans_eq_ok {seen values result : List String} :
    collectPlans toLowercase seen values = .ok result ↔
      (∀ plan ∈ values, validPlan (toLowercase (trim plan))) ∧
        result = keepFirst id seen (values.map fun plan => toLowercase (trim plan)) := by
  induction values generalizing seen result with
  | nil => exact ⟨fun h => ⟨nofun, (Except.ok.inj h).symm⟩, fun h => congrArg Except.ok h.2.symm⟩
  | cons plan values ih =>
    rw [collectPlans, List.forall_mem_cons, List.map_cons, keepFirst, id_eq]
    split
    case isTrue hinvalid =>
      refine ⟨nofun, fun h => ?_⟩
      obtain ⟨⟨⟨hblank, hlong, hcontrol⟩, -⟩, -⟩ := h
      rcases hinvalid with hbad | hbad | hbad
      · exact absurd hbad hblank
      · exact absurd hlong (Nat.not_le_of_gt hbad)
      · exact absurd hbad (ne_true_of_eq_false hcontrol)
    case isFalse hvalid =>
      simp only [not_or, Nat.not_lt, gt_iff_lt, Bool.not_eq_true] at hvalid
      have hplan : validPlan (toLowercase (trim plan)) := hvalid
      by_cases hseen : toLowercase (trim plan) ∈ seen
      · rw [if_pos hseen, if_pos hseen, ih, and_iff_right hplan]
      · rw [if_neg hseen, if_neg hseen, map_eq_ok]
        constructor
        · rintro ⟨rest, hrest, rfl⟩
          obtain ⟨hvalues, rfl⟩ := ih.mp hrest
          exact ⟨⟨hplan, hvalues⟩, rfl⟩
        · rintro ⟨⟨-, hvalues⟩, rfl⟩
          exact ⟨_, ih.mpr ⟨hvalues, rfl⟩, rfl⟩

theorem normalizeSubscriptionPlanOrder_idem (hlower : LowercaseLaws toLowercase) {values result : List String}
    (h : normalizeSubscriptionPlanOrder toLowercase values = .ok result) :
    normalizeSubscriptionPlanOrder toLowercase result = .ok result := by
  rw [normalizeSubscriptionPlanOrder] at h
  split at h
  case isTrue => exact nomatch h
  case isFalse hlength =>
    obtain ⟨hvalid, rfl⟩ := collectPlans_eq_ok.mp h
    have hsublist := keepFirst_sublist id [] (values.map fun plan => toLowercase (trim plan))
    have hspelled : ∀ plan ∈ keepFirst id [] (values.map fun plan => toLowercase (trim plan)),
        toLowercase (trim plan) = plan ∧ validPlan plan := by
      intro plan hplan
      obtain ⟨origin, horigin, rfl⟩ := List.mem_map.mp (hsublist.subset hplan)
      rw [hlower.trimmed, hlower.idem]
      exact ⟨rfl, hvalid origin horigin⟩
    rw [normalizeSubscriptionPlanOrder, if_neg, collectPlans_eq_ok]
    · refine ⟨fun plan hplan => ?_, ?_⟩
      · rw [(hspelled plan hplan).1]
        exact (hspelled plan hplan).2
      · rw [List.map_congr_left fun plan hplan => (hspelled plan hplan).1, List.map_id', keepFirst_idem]
    · refine fun hlong => hlength (hlong.trans_le (hsublist.length_le.trans ?_))
      rw [List.length_map]

end

/-! ## Presets -/

/-- What a preset is turned into. -/
structure Normalizes (parts : PresetParts) (preset result : ConfigurationPreset) : Prop where
  format : preset.format = configurationPresetFormat
  version : minConfigurationPresetSchemaVersion ≤ preset.schemaVersion ∧ preset.schemaVersion ≤ configurationPresetSchemaVersion
  sources : normalizeSourcePresetRules parts preset.settings.sources = .ok result.settings.sources
  accounts : normalizeAccountPresetRules preset.settings.accounts = .ok result.settings.accounts
  plans : normalizeSubscriptionPlanOrder parts.toLowercase preset.settings.routing.subscriptionPlanOrder =
    .ok result.settings.routing.subscriptionPlanOrder
  imageModel : normalizeImageBaseModel preset.settings.routing.imageBaseModel = .ok result.settings.routing.imageBaseModel
  policy : validRetryCount preset.settings.routing.maxRetryCandidates = true ∧
    validRetryCount preset.settings.routing.cooldownAfterFailures = true ∧
    validRequestTimeout preset.settings.quota.requestTimeoutSeconds = true
  hidden : normalizePresetModelIds preset.settings.hiddenModels = .ok result.settings.hiddenModels
  prices : normalizeModelPriceOverrides preset.settings.modelPriceOverrides = .ok result.settings.modelPriceOverrides
  levels : normalizeModelReasoningAllowedLevels preset.settings.modelReasoningAllowedLevels =
    .ok result.settings.modelReasoningAllowedLevels
  tiers : normalizeModelServiceTierOverrides preset.settings.modelServiceTierOverrides =
    .ok result.settings.modelServiceTierOverrides
  order : result.settings.modelDisplayOrder = normalizeModelIds preset.settings.modelDisplayOrder
  rest : result = { preset with
    settings := { preset.settings with
      sources := result.settings.sources
      accounts := result.settings.accounts
      hiddenModels := result.settings.hiddenModels
      modelPriceOverrides := result.settings.modelPriceOverrides
      modelReasoningAllowedLevels := result.settings.modelReasoningAllowedLevels
      modelServiceTierOverrides := result.settings.modelServiceTierOverrides
      modelDisplayOrder := result.settings.modelDisplayOrder
      routing := { preset.settings.routing with
        subscriptionPlanOrder := result.settings.routing.subscriptionPlanOrder
        imageBaseModel := result.settings.routing.imageBaseModel } } }

theorem normalizeConfigurationPreset_eq_ok (preset result : ConfigurationPreset) :
    normalizeConfigurationPreset parts preset = .ok result ↔ Normalizes parts preset result := by
  rw [normalizeConfigurationPreset]
  split
  case isTrue hformat => exact ⟨nofun, fun h => absurd h.format hformat⟩
  case isFalse hformat =>
    split
    case isTrue hversion =>
      refine ⟨nofun, fun h => ?_⟩
      rcases hversion with hlow | hhigh
      · exact absurd h.version.1 (Nat.not_le_of_gt hlow)
      · exact absurd h.version.2 (Nat.not_le_of_gt hhigh)
    case isFalse hversion =>
      have hversion : minConfigurationPresetSchemaVersion ≤ preset.schemaVersion ∧
          preset.schemaVersion ≤ configurationPresetSchemaVersion :=
        ⟨Nat.le_of_not_lt fun h => hversion (.inl h), Nat.le_of_not_lt fun h => hversion (.inr h)⟩
      constructor
      · intro h
        obtain ⟨sources, hsources, h⟩ := bind_eq_ok.mp h
        obtain ⟨accounts, haccounts, h⟩ := bind_eq_ok.mp h
        obtain ⟨plans, hplans, h⟩ := bind_eq_ok.mp h
        obtain ⟨imageModel, himageModel, h⟩ := bind_eq_ok.mp h
        split at h
        case isTrue => exact nomatch h
        case isFalse hpolicy =>
          obtain ⟨hidden, hhidden, h⟩ := bind_eq_ok.mp h
          obtain ⟨prices, hprices, h⟩ := bind_eq_ok.mp h
          obtain ⟨levels, hlevels, h⟩ := bind_eq_ok.mp h
          obtain ⟨tiers, htiers, h⟩ := bind_eq_ok.mp h
          obtain rfl := Except.ok.inj h
          simp only [Bool.not_eq_false, Bool.and_eq_true] at hpolicy
          exact ⟨not_not.mp hformat, hversion, hsources, haccounts, hplans, himageModel, ⟨hpolicy.1.1, hpolicy.1.2, hpolicy.2⟩,
            hhidden, withPrefix_eq_ok.mp hprices, withPrefix_eq_ok.mp hlevels, withPrefix_eq_ok.mp htiers, rfl, rfl⟩
      · intro h
        refine bind_eq_ok.mpr ⟨_, h.sources, bind_eq_ok.mpr ⟨_, h.accounts, bind_eq_ok.mpr ⟨_, h.plans, ?_⟩⟩⟩
        refine bind_eq_ok.mpr ⟨_, h.imageModel, ?_⟩
        rw [if_neg (by rw [h.policy.1, h.policy.2.1, h.policy.2.2]; decide)]
        refine bind_eq_ok.mpr ⟨_, h.hidden, bind_eq_ok.mpr ⟨_, withPrefix_eq_ok.mpr h.prices, ?_⟩⟩
        refine bind_eq_ok.mpr ⟨_, withPrefix_eq_ok.mpr h.levels, bind_eq_ok.mpr ⟨_, withPrefix_eq_ok.mpr h.tiers, ?_⟩⟩
        rw [← h.order]
        exact congrArg Except.ok h.rest.symm

theorem normalizeSourcePresetRules_eq_ok {rules result : List SourcePresetRule} :
    normalizeSourcePresetRules parts rules = .ok result ↔
      NormalMembers (·.id) (NormalSource parts) rules result :=
  normalMembers_iff normalizeSourcePresetRule_eq_ok

theorem normalizeAccountPresetRules_eq_ok {rules result : List AccountPresetRule} :
    normalizeAccountPresetRules rules = .ok result ↔ NormalMembers (·.id) NormalAccount rules result :=
  normalMembers_iff normalizeAccountPresetRule_eq_ok

/-! ## What follows -/

/-- Only addresses that keep white space behind their slashes need another round. -/
theorem Normalizes.idem {preset result : ConfigurationPreset} (hlower : LowercaseLaws parts.toLowercase)
    (h : Normalizes parts preset result) (hurls : ∀ rule ∈ preset.settings.sources, SettledUrl rule.baseUrl) :
    Normalizes parts result result := by
  have hsources := (normalizeSourcePresetRules_eq_ok.mp h.sources).idem (fun _ _ => NormalSource.id_eq)
    fun rule hrule _ hnormal => hnormal.idem (hurls rule hrule)
  have haccounts := (normalizeAccountPresetRules_eq_ok.mp h.accounts).idem (fun _ _ => NormalAccount.id_eq)
    fun _ _ _ hnormal => hnormal.idem
  have horder := h.order
  obtain ⟨hformat, hversion, -, -, hplans, himageModel, hpolicy, hhidden, hprices, hlevels, htiers, -, hrest⟩ := h
  constructor
  case format => rw [hrest]; exact hformat
  case version => rw [hrest]; exact hversion
  case sources => exact normalizeSourcePresetRules_eq_ok.mpr hsources
  case accounts => exact normalizeAccountPresetRules_eq_ok.mpr haccounts
  case plans => exact normalizeSubscriptionPlanOrder_idem hlower hplans
  case imageModel => exact normalizeImageBaseModel_idem himageModel
  case policy => rw [hrest]; exact hpolicy
  case hidden => exact checkModelIds_idem hhidden _ _
  case prices => exact normalizeModelMap_idem stable_checkPriceOverride hprices
  case levels => exact normalizeModelMap_idem stable_checkReasoningLevels hlevels
  case tiers => exact normalizeModelMap_idem stable_checkServiceTier htiers
  case order => rw [horder, normalizeModelIds_idem]
  case rest => rfl

theorem Normalizes.validate {preset result : ConfigurationPreset} (hlower : LowercaseLaws parts.toLowercase)
    (h : Normalizes parts preset result) : validateConfigurationSettings parts result.settings = .ok () := by
  have hsources := normalizeSourcePresetRules_eq_ok.mp h.sources
  have haccounts := normalizeAccountPresetRules_eq_ok.mp h.accounts
  obtain ⟨hretry, hcooldown, htimeout⟩ : validRetryCount result.settings.routing.maxRetryCandidates = true ∧
      validRetryCount result.settings.routing.cooldownAfterFailures = true ∧
      validRequestTimeout result.settings.quota.requestTimeoutSeconds = true := by
    rw [h.rest]
    exact h.policy
  refine bind_eq_ok.mpr ⟨(), if_neg (ne_false_of_eq_true htimeout), bind_eq_ok.mpr ⟨(), ?_, ?_⟩⟩
  · rw [validateRoutingPolicy, if_neg (ne_false_of_eq_true hretry), if_neg (ne_false_of_eq_true hcooldown)]
  refine bind_eq_ok.mpr ⟨(), requireNormal_of_ok (normalizeSubscriptionPlanOrder_idem hlower h.plans), ?_⟩
  refine bind_eq_ok.mpr ⟨(), requireNormal_of_ok (normalizeImageBaseModel_idem h.imageModel), ?_⟩
  refine bind_eq_ok.mpr ⟨(), requireNormal_of_ok (checkModelIds_idem h.hidden _ _), ?_⟩
  refine bind_eq_ok.mpr ⟨(), requireNormal_of_ok (normalizeModelMap_idem stable_checkPriceOverride h.prices), ?_⟩
  refine bind_eq_ok.mpr ⟨(), requireNormal_of_ok (normalizeModelMap_idem stable_checkReasoningLevels h.levels), ?_⟩
  refine bind_eq_ok.mpr ⟨(), requireNormal_of_ok (normalizeModelMap_idem stable_checkServiceTier h.tiers), ?_⟩
  refine bind_eq_ok.mpr ⟨(), requireNormal_of_ok (congrArg Except.ok ?_), bind_eq_ok.mpr ⟨(), ?_, ?_⟩⟩
  · rw [h.order, normalizeModelIds_idem]
  · refine validateMembers_of_normal (fun member hmember ids hnew => ?_)
      (hsources.nodup_result fun _ _ => NormalSource.id_eq) fun _ _ => List.not_mem_nil
    obtain ⟨rule, -, hnormal⟩ := hsources.exists_of_mem hmember
    exact hnormal.validate hnew
  · refine validateMembers_of_normal (fun member hmember ids hnew => ?_)
      (haccounts.nodup_result fun _ _ => NormalAccount.id_eq) fun _ _ => List.not_mem_nil
    obtain ⟨rule, -, hnormal⟩ := haccounts.exists_of_mem hmember
    exact hnormal.validate hnew

end

end Zenith.Presets
