import Mathlib
import Zenith.Presets.Normalize

/-!
# Presets that mean the same

`LikePresets` are presets that differ in the order of their members and in the spelling of model ids. They are accepted
alike and normalize to the same preset (`preset_normalization_canonical`), which the store takes, and which normalizes
to itself.

Two things do count. A list has a limit on what it was sent with, blanks and repetitions included; and where keys of a
map become the same, the last in the order of the sent keys wins (`spelling_matters`).
-/

namespace Zenith.Presets

open Zenith.Scheduler Zenith.Server Zenith.Sources Zenith.Tables Zenith.Text

/-! ## Spellings -/

/-- What a source rule has besides its model ids. -/
def sourceRest (rule : SourcePresetRule) : SourcePresetRule :=
  { rule with protocolBindings := [], allowedModels := [], excludedModels := [], modelPriceOverrides := [] }

def accountRest (rule : AccountPresetRule) : AccountPresetRule := { rule with allowedModels := [], excludedModels := [] }

def bindingRest (binding : SourceProtocolBinding) : SourceProtocolBinding := { binding with modelIds := [] }

/-- What a preset has besides its members and its model ids. -/
def presetRest (preset : ConfigurationPreset) : ConfigurationPreset :=
  { preset with
    settings := { preset.settings with
      sources := []
      accounts := []
      hiddenModels := []
      modelPriceOverrides := []
      modelReasoningAllowedLevels := []
      modelServiceTierOverrides := []
      modelDisplayOrder := []
      routing := { preset.settings.routing with imageBaseModel := none } } }

structure LikeBinding (binding binding' : SourceProtocolBinding) : Prop where
  rest : bindingRest binding = bindingRest binding'
  ids : LikeIds binding.modelIds binding'.modelIds

structure LikeSource (rule rule' : SourcePresetRule) : Prop where
  rest : sourceRest rule = sourceRest rule'
  bindings : List.Forall₂ LikeBinding rule.protocolBindings rule'.protocolBindings
  allowed : LikeLists rule.allowedModels rule'.allowedModels
  excluded : LikeLists rule.excludedModels rule'.excludedModels
  prices : LikeMaps rule.modelPriceOverrides rule'.modelPriceOverrides

structure LikeAccount (rule rule' : AccountPresetRule) : Prop where
  rest : accountRest rule = accountRest rule'
  allowed : LikeLists rule.allowedModels rule'.allowedModels
  excluded : LikeLists rule.excludedModels rule'.excludedModels

/-- Presets with the same members in some order, and with like spellings of all model ids. -/
structure LikePresets (preset preset' : ConfigurationPreset) : Prop where
  rest : presetRest preset = presetRest preset'
  sources : LikeMembers LikeSource preset.settings.sources preset'.settings.sources
  accounts : LikeMembers LikeAccount preset.settings.accounts preset'.settings.accounts
  imageModel : preset.settings.routing.imageBaseModel.map trim = preset'.settings.routing.imageBaseModel.map trim
  hidden : LikeLists preset.settings.hiddenModels preset'.settings.hiddenModels
  prices : LikeMaps preset.settings.modelPriceOverrides preset'.settings.modelPriceOverrides
  levels : LikeMaps preset.settings.modelReasoningAllowedLevels preset'.settings.modelReasoningAllowedLevels
  tiers : LikeMaps preset.settings.modelServiceTierOverrides preset'.settings.modelServiceTierOverrides
  order : LikeIds preset.settings.modelDisplayOrder preset'.settings.modelDisplayOrder

theorem LikeLists.symm {models models' : List String} (h : LikeLists models models') : LikeLists models' models :=
  ⟨h.ids.symm, h.limit.symm⟩

variable {binding binding' : SourceProtocolBinding}

theorem LikeBinding.symm (h : LikeBinding binding binding') :
    LikeBinding binding' binding := ⟨h.rest.symm, h.ids.symm⟩

theorem LikeSource.symm {rule rule' : SourcePresetRule} (h : LikeSource rule rule') : LikeSource rule' rule :=
  ⟨h.rest.symm, h.bindings.flip.imp fun _ _ => LikeBinding.symm, h.allowed.symm, h.excluded.symm, h.prices.symm⟩

theorem LikeAccount.symm {rule rule' : AccountPresetRule} (h : LikeAccount rule rule') : LikeAccount rule' rule :=
  ⟨h.rest.symm, h.allowed.symm, h.excluded.symm⟩

theorem LikePresets.symm {preset preset' : ConfigurationPreset} (h : LikePresets preset preset') : LikePresets preset' preset :=
  ⟨h.rest.symm, h.sources.symm fun _ _ => LikeSource.symm, h.accounts.symm fun _ _ => LikeAccount.symm, h.imageModel.symm,
    h.hidden.symm, h.prices.symm, h.levels.symm, h.tiers.symm, h.order.symm⟩

/-! ## Like members normalize alike -/

theorem normalizeRoute_like (h : LikeBinding binding binding')
    (models : List String) (expand : Bool) (seen : List BindingKey) :
    normalizeRoute models expand seen binding = normalizeRoute models expand seen binding' := by
  have hids : routedIds models expand binding = routedIds models expand binding' := by
    unfold routedIds
    rw [h.ids.normalize]
  have hwireApi : binding.wireApi = binding'.wireApi := congrArg (fun rest => rest.wireApi) h.rest
  have hadapter : binding.adapter = binding'.adapter := congrArg (fun rest => rest.adapter) h.rest
  have hwrite : binding.cacheWriteTtl = binding'.cacheWriteTtl := congrArg (fun rest => rest.cacheWriteTtl) h.rest
  unfold normalizeRoute bindingKey
  simp only [hids, hadapter, hwireApi, hwrite]

variable {bindings bindings' : List SourceProtocolBinding}

theorem normalizeRoutes_like (h : List.Forall₂ LikeBinding bindings bindings')
    (models : List String) (expand : Bool) (seen : List BindingKey) (assigned : List (WireApi × String)) :
    normalizeRoutes models expand seen assigned bindings = normalizeRoutes models expand seen assigned bindings' := by
  induction h generalizing seen assigned with
  | nil => rfl
  | @cons binding binding' _ _ hbinding _ ih =>
    have hwireApi : binding.wireApi = binding'.wireApi := congrArg (fun rest => rest.wireApi) hbinding.rest
    have hadapter : binding.adapter = binding'.adapter := congrArg (fun rest => rest.adapter) hbinding.rest
    rw [normalizeRoutes, normalizeRoutes, normalizeRoute_like hbinding, bindingKey, bindingKey, hwireApi, hadapter]
    simp only [ih]

theorem normalizePresetBindings_like (h : List.Forall₂ LikeBinding bindings bindings') (wireApi : WireApi) :
    normalizePresetBindings bindings wireApi = normalizePresetBindings bindings' wireApi := by
  cases h with
  | nil => rfl
  | @cons binding binding' rest rest' hbinding hrest =>
    have hadapter : binding.adapter = binding'.adapter := congrArg (fun rest => rest.adapter) hbinding.rest
    have hexpand : expandsEmptyModels (binding :: rest) = expandsEmptyModels (binding' :: rest') := by
      simp [expandsEmptyModels, isPassthrough, hrest.length_eq, hadapter]
    rw [normalizePresetBindings, normalizePresetBindings, if_neg (List.cons_ne_nil _ _), if_neg (List.cons_ne_nil _ _),
      normalizeSourceProtocolBindings, normalizeSourceProtocolBindings]
    rw [effectiveBindings, effectiveBindings, if_neg (List.cons_ne_nil _ _), if_neg (List.cons_ne_nil _ _), hexpand]
    exact normalizeRoutes_like (.cons hbinding hrest) _ _ _ _

theorem normalizeImageBaseModel_like {model model' : Option String} (h : model.map trim = model'.map trim) :
    normalizeImageBaseModel model = normalizeImageBaseModel model' := by
  cases model with
  | none =>
    cases model' with
    | none => rfl
    | some => exact nomatch h
  | some text =>
    cases model' with
    | none => exact nomatch h
    | some text' =>
      have htrim : trim text = trim text' := Option.some.inj h
      rw [normalizeImageBaseModel, normalizeImageBaseModel, htrim]

section
variable {parts : PresetParts}

theorem NormalSource.of_like {rule rule' result : SourcePresetRule} (hlike : LikeSource rule rule')
    (h : NormalSource parts rule result) : NormalSource parts rule' result := by
  have hid : rule.id = rule'.id := congrArg (fun rest => rest.id) hlike.rest
  have hname : rule.name = rule'.name := congrArg (fun rest => rest.name) hlike.rest
  have hbaseUrl : rule.baseUrl = rule'.baseUrl := congrArg (fun rest => rest.baseUrl) hlike.rest
  have hweight : rule.weight = rule'.weight := congrArg (fun rest => rest.weight) hlike.rest
  have hrecovery : rule.recoveryDelaySeconds = rule'.recoveryDelaySeconds :=
    congrArg (fun rest => rest.recoveryDelaySeconds) hlike.rest
  have hwireApi : rule.wireApi = rule'.wireApi := congrArg (fun rest => rest.wireApi) hlike.rest
  constructor
  case reference => exact hid ▸ h.reference
  case weight => exact hweight ▸ h.weight
  case recovery => exact hrecovery ▸ h.recovery
  case name => exact hname ▸ h.name
  case url => exact hbaseUrl ▸ h.url
  case allowed => exact hlike.allowed.check.mp h.allowed
  case excluded => exact hlike.excluded.check.mp h.excluded
  case prices => exact hlike.prices.normalize.mp h.prices
  case bindings =>
    rw [← normalizePresetBindings_like hlike.bindings, ← hwireApi]
    exact h.bindings
  case rest =>
    exact h.rest.trans (congrArg (fun rest : SourcePresetRule => { rest with
      name := trim rest.name
      baseUrl := normalBaseUrl rest.baseUrl
      allowedModels := result.allowedModels
      excludedModels := result.excludedModels
      modelPriceOverrides := result.modelPriceOverrides
      protocolBindings := result.protocolBindings }) hlike.rest)

theorem NormalAccount.of_like {rule rule' result : AccountPresetRule} (hlike : LikeAccount rule rule')
    (h : NormalAccount rule result) : NormalAccount rule' result := by
  have hid : rule.id = rule'.id := congrArg (fun rest => rest.id) hlike.rest
  have hweight : rule.weight = rule'.weight := congrArg (fun rest => rest.weight) hlike.rest
  have hhint : rule.identityHint = rule'.identityHint := congrArg (fun rest => rest.identityHint) hlike.rest
  have hproxy : rule.proxyId = rule'.proxyId := congrArg (fun rest => rest.proxyId) hlike.rest
  have hbypass : rule.bypassCommonProxy = rule'.bypassCommonProxy := congrArg (fun rest => rest.bypassCommonProxy) hlike.rest
  constructor
  case reference => exact hid ▸ h.reference
  case weight => exact hweight ▸ h.weight
  case identityHint => exact hhint ▸ h.identityHint
  case proxy => exact hproxy ▸ h.proxy
  case bypass =>
    rw [← hproxy, ← hbypass]
    exact h.bypass
  case allowed => exact hlike.allowed.check.mp h.allowed
  case excluded => exact hlike.excluded.check.mp h.excluded
  case rest =>
    exact h.rest.trans (congrArg (fun rest : AccountPresetRule => { rest with
      allowedModels := result.allowedModels
      excludedModels := result.excludedModels }) hlike.rest)

theorem Normalizes.of_like {preset preset' result : ConfigurationPreset} (hlike : LikePresets preset preset')
    (h : Normalizes parts preset result) : Normalizes parts preset' result := by
  have hformat : preset.format = preset'.format := congrArg (fun rest => rest.format) hlike.rest
  have hversion : preset.schemaVersion = preset'.schemaVersion := congrArg (fun rest => rest.schemaVersion) hlike.rest
  have hplans : preset.settings.routing.subscriptionPlanOrder = preset'.settings.routing.subscriptionPlanOrder :=
    congrArg (fun rest => rest.settings.routing.subscriptionPlanOrder) hlike.rest
  have hretry : preset.settings.routing.maxRetryCandidates = preset'.settings.routing.maxRetryCandidates :=
    congrArg (fun rest => rest.settings.routing.maxRetryCandidates) hlike.rest
  have hcooldown : preset.settings.routing.cooldownAfterFailures = preset'.settings.routing.cooldownAfterFailures :=
    congrArg (fun rest => rest.settings.routing.cooldownAfterFailures) hlike.rest
  have hquota : preset.settings.quota = preset'.settings.quota := congrArg (fun rest => rest.settings.quota) hlike.rest
  constructor
  case format => exact hformat ▸ h.format
  case version => exact hversion ▸ h.version
  case sources =>
    refine normalizeSourcePresetRules_eq_ok.mpr ((normalizeSourcePresetRules_eq_ok.mp h.sources).of_like hlike.sources ?_ ?_)
    · exact fun _ _ _ => NormalSource.of_like
    · exact fun _ _ => NormalSource.id_eq
  case accounts =>
    refine normalizeAccountPresetRules_eq_ok.mpr ((normalizeAccountPresetRules_eq_ok.mp h.accounts).of_like hlike.accounts ?_ ?_)
    · exact fun _ _ _ => NormalAccount.of_like
    · exact fun _ _ => NormalAccount.id_eq
  case plans => exact hplans ▸ h.plans
  case imageModel => exact (normalizeImageBaseModel_like hlike.imageModel) ▸ h.imageModel
  case policy =>
    rw [← hretry, ← hcooldown, ← hquota]
    exact h.policy
  case hidden => exact hlike.hidden.check.mp h.hidden
  case prices => exact hlike.prices.normalize.mp h.prices
  case levels => exact hlike.levels.normalize.mp h.levels
  case tiers => exact hlike.tiers.normalize.mp h.tiers
  case order => exact h.order.trans hlike.order.normalize
  case rest =>
    exact h.rest.trans (congrArg (fun rest : ConfigurationPreset => { rest with
      settings := { rest.settings with
        sources := result.settings.sources
        accounts := result.settings.accounts
        hiddenModels := result.settings.hiddenModels
        modelPriceOverrides := result.settings.modelPriceOverrides
        modelReasoningAllowedLevels := result.settings.modelReasoningAllowedLevels
        modelServiceTierOverrides := result.settings.modelServiceTierOverrides
        modelDisplayOrder := result.settings.modelDisplayOrder
        routing := { rest.settings.routing with
          subscriptionPlanOrder := result.settings.routing.subscriptionPlanOrder
          imageBaseModel := result.settings.routing.imageBaseModel } } }) hlike.rest)

end

/-- A normalized preset normalizes to itself, when no address keeps white space behind its slashes. Like presets are
accepted alike and normalize to the same preset. And the store takes what is normalized. -/
theorem preset_normalization_canonical (parts : PresetParts) (hlower : LowercaseLaws parts.toLowercase) :
    (∀ preset result, normalizeConfigurationPreset parts preset = .ok result →
      (∀ rule ∈ preset.settings.sources, SettledUrl rule.baseUrl) → normalizeConfigurationPreset parts result = .ok result) ∧
    (∀ preset preset' result, LikePresets preset preset' →
      (normalizeConfigurationPreset parts preset = .ok result ↔ normalizeConfigurationPreset parts preset' = .ok result)) ∧
    ∀ preset result, normalizeConfigurationPreset parts preset = .ok result →
      validateConfigurationSettings parts result.settings = .ok () := by
  simp only [normalizeConfigurationPreset_eq_ok]
  refine ⟨fun preset result h hurls => h.idem hlower hurls, fun preset preset' result hlike => ?_, fun preset result h => ?_⟩
  · exact ⟨Normalizes.of_like hlike, Normalizes.of_like hlike.symm⟩
  · exact h.validate hlower

/-! ## A preset with one source -/

/-- `to_lowercase` on ASCII texts, and addresses that begin as they should. -/
def sampleParts : PresetParts where
  toLowercase := asciiLower
  validUrl url := startsWith url "https://"

theorem sampleParts_lowercase : LowercaseLaws sampleParts.toLowercase := ⟨asciiLower_idem, trim_asciiLower_trim⟩

def presetOf (sources : List SourcePresetRule) (hiddenModels : List String)
    (modelPriceOverrides : List (String × ApiModelPriceOverride)) : ConfigurationPreset where
  format := configurationPresetFormat
  schemaVersion := 3
  settings :=
    { sources
      accounts := []
      routing := ⟨3, 1, true, .adaptive, [], .standard, none⟩
      quota := ⟨15, false, none⟩
      hiddenModels
      modelPriceOverrides
      modelReasoningAllowedLevels := []
      modelServiceTierOverrides := []
      modelDisplayOrder := []
      modelReasoningAllowedLevelsPresent := true
      modelServiceTierOverridesPresent := true
      modelDisplayOrderPresent := true }

def sampleSource (baseUrl : String) (allowedModels : List String) : SourcePresetRule where
  id := "s1"
  name := "Source"
  baseUrl
  wireApi := .responses
  enabled := true
  inPool := true
  allowedModels
  priority := 0
  weight := 1

theorem sample_normal :
    normalizeConfigurationPreset sampleParts (presetOf [sampleSource "https://x/" [" m"]] [] []) =
      .ok (presetOf [sampleSource "https://x" ["m"]] [] []) := by
  decide +kernel

theorem likeIds_sample : LikeIds [" m"] ["m", "", "M "] := by
  have htrim : IdsStep [" m"] ["m"] := .spaces [] [] (by decide +kernel)
  have hblank : IdsStep ["m"] ["m", ""] := .blank ["m"] [] (by decide +kernel)
  have hrepeated : IdsStep ["m", ""] ["m", "", "M "] :=
    .repeated ["m", ""] [] (List.mem_cons_self : "m" ∈ ["m", ""]) (by decide +kernel)
  exact .trans _ _ _ (.rel _ _ htrim) (.trans _ _ _ (.rel _ _ hblank) (.rel _ _ hrepeated))

theorem likeMaps_nil {β : Type} : LikeMaps ([] : List (String × β)) [] := ⟨List.nodup_nil, .nil⟩

theorem likePresets_sample :
    LikePresets (presetOf [sampleSource "https://x/" [" m"]] [] []) (presetOf [sampleSource "https://x/" ["m", "", "M "]] [] []) := by
  have hnil : LikeLists [] [] := ⟨.refl [], Iff.rfl⟩
  have hids : LikeLists [" m"] ["m", "", "M "] := ⟨likeIds_sample, by decide⟩
  have hsource : LikeSource (sampleSource "https://x/" [" m"]) (sampleSource "https://x/" ["m", "", "M "]) :=
    ⟨rfl, .nil, hids, hnil, likeMaps_nil⟩
  exact ⟨rfl, ⟨_, .refl _, .cons hsource .nil⟩, ⟨[], .nil, .nil⟩, rfl, hnil, likeMaps_nil, likeMaps_nil, likeMaps_nil, .refl []⟩

/-- The sample normalizes to a preset that normalizes to itself, as does a like preset, and that the store takes. -/
theorem sample_canonical :
    normalizeConfigurationPreset sampleParts (presetOf [sampleSource "https://x" ["m"]] [] []) =
        .ok (presetOf [sampleSource "https://x" ["m"]] [] []) ∧
      normalizeConfigurationPreset sampleParts (presetOf [sampleSource "https://x/" ["m", "", "M "]] [] []) =
        .ok (presetOf [sampleSource "https://x" ["m"]] [] []) ∧
      validateConfigurationSettings sampleParts (presetOf [sampleSource "https://x" ["m"]] [] []).settings = .ok () := by
  obtain ⟨hidem, hlike, hvalid⟩ := preset_normalization_canonical sampleParts sampleParts_lowercase
  refine ⟨hidem _ _ sample_normal ?_, (hlike _ _ _ likePresets_sample).mp sample_normal, hvalid _ _ sample_normal⟩
  exact List.forall_mem_singleton.mpr (by unfold SettledUrl; decide +kernel)

/-! ## Where the spelling counts -/

def samplePrice (price : Nat) : ApiModelPriceOverride := { inputMicroUsdPerMillion := price, outputMicroUsdPerMillion := price }

theorem likeIds_replicate (n : Nat) : LikeIds (List.replicate (n + 1) "a") (List.replicate (n + 2) "a") := by
  have hstep := @IdsStep.repeated (List.replicate (n + 1) "a") [] "a" "a"
    (List.mem_replicate.mpr ⟨Nat.succ_ne_zero n, rfl⟩) rfl
  rw [List.append_nil, ← List.replicate_succ'] at hstep
  exact .rel _ _ hstep

theorem normalizeModelIds_replicate (n : Nat) : normalizeModelIds (List.replicate (n + 1) "a") = ["a"] := by
  induction n with
  | zero => decide +kernel
  | succ n ih => exact (likeIds_replicate n).normalize.symm.trans ih

/-- One repetition more is too many, although all repetitions are dropped; and of two keys that become the same, white
space decides which counts. -/
theorem spelling_matters :
    (LikeIds (List.replicate 4096 "a") (List.replicate 4097 "a") ∧
      normalizeConfigurationPreset sampleParts (presetOf [] (List.replicate 4096 "a") []) = .ok (presetOf [] ["a"] []) ∧
      ∀ result, normalizeConfigurationPreset sampleParts (presetOf [] (List.replicate 4097 "a") []) ≠ .ok result) ∧
    ([("A", samplePrice 1), ("a ", samplePrice 2)].map trimKey).Perm ([(" a", samplePrice 2), ("A", samplePrice 1)].map trimKey) ∧
    normalizeConfigurationPreset sampleParts (presetOf [] [] [("A", samplePrice 1), ("a ", samplePrice 2)]) =
      .ok (presetOf [] [] [("a", samplePrice 2)]) ∧
    normalizeConfigurationPreset sampleParts (presetOf [] [] [(" a", samplePrice 2), ("A", samplePrice 1)]) =
      .ok (presetOf [] [] [("a", samplePrice 1)]) := by
  refine ⟨⟨likeIds_replicate 4095, ?_, fun result h => ?_⟩, ?_, by decide +kernel, by decide +kernel⟩
  · refine (normalizeConfigurationPreset_eq_ok _ _).mpr ⟨rfl, by decide, by decide +kernel, by decide +kernel, by decide +kernel, rfl,
      by decide, ?_, rfl, rfl, rfl, rfl, rfl⟩
    refine checkModelIds_eq_ok.mpr ⟨List.length_replicate.le, fun id hid _ => ?_, (normalizeModelIds_replicate 4095).symm⟩
    rw [List.eq_of_mem_replicate hid]
    decide +kernel
  · have hhidden := ((normalizeConfigurationPreset_eq_ok _ _).mp h).hidden
    have hlength := (checkModelIds_eq_ok.mp hhidden).1
    rw [show (presetOf [] (List.replicate 4097 "a") []).settings.hiddenModels = List.replicate 4097 "a" from rfl,
      List.length_replicate] at hlength
    exact absurd hlength (by decide)
  · have hkeys : ([(" a", samplePrice 2), ("A", samplePrice 1)].map trimKey) = [("a", samplePrice 2), ("A", samplePrice 1)] ∧
        [("A", samplePrice 1), ("a ", samplePrice 2)].map trimKey = [("A", samplePrice 1), ("a", samplePrice 2)] := by
      decide +kernel
    rw [hkeys.1, hkeys.2]
    exact .swap _ _ _

end Zenith.Presets
