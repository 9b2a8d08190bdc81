import Mathlib
import Zenith.Lib.Distinct
import Zenith.Server.RuntimeBuild

/-!
# Source protocol bindings

`normalize_source_protocol_bindings` of `sources/mod.rs`: the routes of a source, each for a client protocol with an
adapter, and the models behind them. The loop checks a route against the routes and the models before it;
`normalizeRoutes_eq_ok` says for the whole list what it accepts and what it makes of it, and
`source_bindings_unambiguous` what follows for the table.
-/

namespace Zenith.Sources

open Zenith.Distinct Zenith.Scheduler Zenith.Server Zenith.Tables Zenith.Text

/-! ## Model ids -/

/-- Trimmed, without blanks, and without repetitions in another case. -/
def normalizeModelIds (models : List String) : List String :=
  keepFirst asciiLower [] ((models.map trim).filter fun model => model ≠ "")

/-- A list that is normal already. -/
structure NormalIds (models : List String) : Prop where
  trimmed : ∀ model ∈ models, trim model = model
  nonempty : ∀ model ∈ models, model ≠ ""
  nodup : (models.map asciiLower).Nodup

theorem normal_normalizeModelIds (models : List String) : NormalIds (normalizeModelIds models) := by
  have hmem : ∀ model ∈ normalizeModelIds models, model ∈ models.map trim ∧ model ≠ "" := by
    intro model hmodel
    obtain ⟨hmap, hne⟩ := List.mem_filter.mp ((keepFirst_sublist asciiLower [] _).subset hmodel)
    exact ⟨hmap, of_decide_eq_true hne⟩
  refine ⟨fun model hmodel => ?_, fun model hmodel => (hmem model hmodel).2, nodup_keepFirst [] _⟩
  obtain ⟨text, -, rfl⟩ := List.mem_map.mp (hmem model hmodel).1
  exact trim_trim text

variable {models : List String}

theorem normalizeModelIds_of_normal (h : NormalIds models) : normalizeModelIds models = models := by
  have htrim : models.map trim = models := (List.map_congr_left h.trimmed).trans (List.map_id models)
  have hfilter : (models.filter fun model => decide (model ≠ "")) = models :=
    List.filter_eq_self.mpr fun model hmodel => decide_eq_true (h.nonempty model hmodel)
  rw [normalizeModelIds, htrim, hfilter]
  exact keepFirst_of_nodup h.nodup fun _ _ => List.not_mem_nil

theorem normalizeModelIds_idem (models : List String) : normalizeModelIds (normalizeModelIds models) = normalizeModelIds models :=
  normalizeModelIds_of_normal (normal_normalizeModelIds models)

/-! ## Adapters -/

inductive UpstreamProtocol
  | responses
  | chatCompletions
  | messages
  | geminiGenerateContent
deriving DecidableEq, Repr

def upstreamProtocol : SourceAdapter → WireApi → UpstreamProtocol
  | .native, .responses => .responses
  | .native, .chatCompletions => .chatCompletions
  | .native, .messages => .messages
  | .native, .gemini => .geminiGenerateContent
  | .responsesToMessages, _ => .messages
  | .responsesToGemini, _ => .geminiGenerateContent

def isPassthrough (adapter : SourceAdapter) : Bool := adapter = .native

def reasoningUnsupported : String := "the selected source adapter does not expose reasoning for this binding"

def unsupportedBinding : String := "the selected adapter cannot serve this client protocol"

def validate (adapter : SourceAdapter) (clientWireApi : WireApi) (reasoningMode : MessagesReasoningMode) :
    Except String Unit :=
  match adapter with
  | .native => if reasoningMode = .disabled then .ok () else .error reasoningUnsupported
  | .responsesToMessages | .responsesToGemini =>
    if clientWireApi = .responses then .ok () else .error unsupportedBinding

/-! ## Bindings -/

/-- Bridges have one way to translate reasoning; native routes have none. -/
def technicalReasoningMode : SourceAdapter → MessagesReasoningMode
  | .responsesToMessages | .responsesToGemini => .adaptive
  | .native => .disabled

abbrev BindingKey := WireApi × SourceAdapter

def bindingKey (binding : SourceProtocolBinding) : BindingKey := (binding.wireApi, binding.adapter)

def legacy (wireApi : WireApi) (models : List String) : SourceProtocolBinding := { wireApi, modelIds := models }

/-- The models of a route. `models` is the catalog, which a single native route without models stands for. -/
def routedIds (models : List String) (expandEmptyModels : Bool) (binding : SourceProtocolBinding) : List String :=
  if normalizeModelIds binding.modelIds = [] ∧ expandEmptyModels = true then models
  else normalizeModelIds binding.modelIds

/-- Assigns models to routes of a client protocol, unless one is assigned. -/
def assign (wireApi : WireApi) : List (WireApi × String) → List String → Option (List (WireApi × String))
  | assigned, [] => some assigned
  | assigned, model :: models =>
    if (wireApi, asciiLower model) ∈ assigned then none
    else assign wireApi ((wireApi, asciiLower model) :: assigned) models

/-- One route, after those of `seenRoutes`. -/
def normalizeRoute (models : List String) (expandEmptyModels : Bool) (seenRoutes : List BindingKey)
    (binding : SourceProtocolBinding) : Except String SourceProtocolBinding :=
  let reasoningMode := technicalReasoningMode binding.adapter
  match validate binding.adapter binding.wireApi reasoningMode with
  | .error message => .error ("source protocol binding is invalid: " ++ message)
  | .ok () =>
    if binding.cacheWriteTtl ≠ .provider ∧ upstreamProtocol binding.adapter binding.wireApi ≠ .messages then
      .error "cache write TTL requires a Messages upstream route"
    else if bindingKey binding ∈ seenRoutes then
      .error "each client protocol and adapter route may be configured only once"
    else
      let modelIds := routedIds models expandEmptyModels binding
      if models ≠ [] ∧ (modelIds.any fun model => asciiLower model ∉ models.map asciiLower) = true then
        .error "source protocol binding references a model not exposed by the source"
      else .ok { binding with reasoningMode, modelIds }

def normalizeRoutes (models : List String) (expandEmptyModels : Bool) :
    List BindingKey → List (WireApi × String) → List SourceProtocolBinding → Except String (List SourceProtocolBinding)
  | _, _, [] => .ok []
  | seenRoutes, assignedModels, binding :: bindings => do
    let route ← normalizeRoute models expandEmptyModels seenRoutes binding
    match assign binding.wireApi assignedModels route.modelIds with
    | none => .error "a model may be assigned to only one source route for the same client protocol"
    | some assignedModels =>
      let normalized ← normalizeRoutes models expandEmptyModels (bindingKey binding :: seenRoutes) assignedModels bindings
      .ok (route :: normalized)

/-- The routes that a source stands for. -/
def effectiveBindings (bindings : List SourceProtocolBinding) (fallbackWireApi : WireApi) (models : List String) :
    List SourceProtocolBinding :=
  if bindings = [] then [legacy fallbackWireApi models] else bindings

def expandsEmptyModels (bindings : List SourceProtocolBinding) : Bool :=
  bindings.length = 1 && bindings.head?.any fun binding => isPassthrough binding.adapter

def normalizeSourceProtocolBindings (bindings : List SourceProtocolBinding) (fallbackWireApi : WireApi)
    (models : List String) : Except String (List SourceProtocolBinding) :=
  let models := normalizeModelIds models
  let bindings := effectiveBindings bindings fallbackWireApi models
  normalizeRoutes models (expandsEmptyModels bindings) [] [] bindings

/-- `WireApi::ALL`. -/
def allWireApis : List WireApi := [.responses, .chatCompletions, .messages, .gemini]

def runtimeSourceModelsForAnyWireApi (bindings : List SourceProtocolBinding) (fallbackWireApi : WireApi)
    (sourceModels : List String) : Except String (List String) :=
  (normalizeSourceProtocolBindings bindings fallbackWireApi sourceModels).map fun bindings =>
    keepFirst asciiLower [] (allWireApis.flatMap fun wireApi =>
      (bindings.filter fun binding => binding.wireApi = wireApi).flatMap (·.modelIds))

/-! ## What is accepted -/

section
variable (models : List String) (expand : Bool)

def normalizedRoute (binding : SourceProtocolBinding) : SourceProtocolBinding :=
  { binding with
    reasoningMode := technicalReasoningMode binding.adapter
    modelIds := routedIds models expand binding }

/-- The models of a route, with its client protocol. -/
def assignments (binding : SourceProtocolBinding) : List (WireApi × String) :=
  (routedIds models expand binding).map fun model => (binding.wireApi, asciiLower model)

/-- A route that is valid by itself. -/
structure ValidRoute (binding : SourceProtocolBinding) : Prop where
  adapter : validate binding.adapter binding.wireApi (technicalReasoningMode binding.adapter) = .ok ()
  cacheWriteTtl : binding.cacheWriteTtl = .provider ∨ upstreamProtocol binding.adapter binding.wireApi = .messages
  known : models = [] ∨ ∀ model ∈ routedIds models expand binding, asciiLower model ∈ models.map asciiLower

/-- Routes that are valid by themselves, and different from each other and from those before. -/
structure AcceptedRoutes (seenRoutes : List BindingKey) (assignedModels : List (WireApi × String))
    (bindings : List SourceProtocolBinding) : Prop where
  valid : ∀ binding ∈ bindings, ValidRoute models expand binding
  keys : (bindings.map bindingKey).Nodup
  seen : ∀ binding ∈ bindings, bindingKey binding ∉ seenRoutes
  assigned : (bindings.flatMap (assignments models expand)).Nodup
  unassigned : ∀ pair ∈ bindings.flatMap (assignments models expand), pair ∉ assignedModels

end

section
variable {models : List String} {expand : Bool} {seenRoutes : List BindingKey} {assignedModels : List (WireApi × String)}

theorem normalizeRoute_eq_ok {binding route : SourceProtocolBinding} :
    normalizeRoute models expand seenRoutes binding = .ok route ↔
      ValidRoute models expand binding ∧ bindingKey binding ∉ seenRoutes ∧ route = normalizedRoute models expand binding := by
  unfold normalizeRoute
  dsimp only
  cases hadapter : validate binding.adapter binding.wireApi (technicalReasoningMode binding.adapter) with
  | error message => exact ⟨nofun, fun h => nomatch hadapter.symm.trans h.1.adapter⟩
  | ok _ =>
    dsimp only
    split
    case isTrue hwrite =>
      exact ⟨nofun, fun h => (h.1.cacheWriteTtl.elim hwrite.1 hwrite.2).elim⟩
    case isFalse hwrite =>
      split
      case isTrue hseen => exact ⟨nofun, fun h => absurd hseen h.2.1⟩
      case isFalse hseen =>
        split
        case isTrue hunknown =>
          refine ⟨nofun, fun h => ?_⟩
          obtain ⟨model, hmodel, hnot⟩ := List.any_eq_true.mp hunknown.2
          exact absurd (h.1.known.resolve_left hunknown.1 model hmodel) (of_decide_eq_true hnot)
        case isFalse hknown =>
          have hvalid : ValidRoute models expand binding := by
            refine ⟨hadapter, ?_, ?_⟩
            · by_cases hprovider : binding.cacheWriteTtl = .provider
              · exact .inl hprovider
              · exact .inr (not_not.mp fun hmessages => hwrite ⟨hprovider, hmessages⟩)
            · by_cases hmodels : models = []
              · exact .inl hmodels
              · refine .inr fun model hmodel => not_not.mp fun hnot => hknown ⟨hmodels, ?_⟩
                exact List.any_eq_true.mpr ⟨model, hmodel, decide_eq_true hnot⟩
          exact ⟨fun h => ⟨hvalid, hseen, (Except.ok.inj h).symm⟩, fun h => congrArg Except.ok h.2.2.symm⟩

theorem assign_eq_some {wireApi : WireApi} {ids : List String} {assigned' : List (WireApi × String)} :
    assign wireApi assignedModels ids = some assigned' ↔
      ((ids.map fun model => (wireApi, asciiLower model)).Nodup ∧
        ∀ model ∈ ids, (wireApi, asciiLower model) ∉ assignedModels) ∧
      assigned' = (ids.map fun model => (wireApi, asciiLower model)).reverse ++ assignedModels := by
  induction ids generalizing assignedModels with
  | nil => exact ⟨fun h => ⟨⟨List.nodup_nil, nofun⟩, (Option.some.inj h).symm⟩, fun h => congrArg some h.2.symm⟩
  | cons model ids ih =>
    rw [assign]
    split
    case isTrue hassigned =>
      exact ⟨nofun, fun h => absurd hassigned (h.1.2 model List.mem_cons_self)⟩
    case isFalse hassigned =>
      rw [ih, List.map_cons, List.nodup_cons, List.reverse_cons, List.append_assoc, List.singleton_append]
      refine and_congr_left fun _ => ?_
      constructor
      · rintro ⟨hnodup, hfresh⟩
        refine ⟨⟨fun hmem => ?_, hnodup⟩, fun other hother => ?_⟩
        · obtain ⟨other, hother, heq⟩ := List.mem_map.mp hmem
          exact hfresh other hother (heq ▸ List.mem_cons_self)
        · rcases List.mem_cons.mp hother with rfl | hother
          · exact hassigned
          · exact fun h => hfresh other hother (List.mem_cons_of_mem _ h)
      · rintro ⟨⟨hnew, hnodup⟩, hfresh⟩
        refine ⟨hnodup, fun other hother hmem => ?_⟩
        rcases List.mem_cons.mp hmem with heq | hmem
        · exact hnew (heq ▸ List.mem_map_of_mem hother)
        · exact hfresh other (List.mem_cons_of_mem model hother) hmem

variable {bindings : List SourceProtocolBinding}

theorem acceptedRoutes_cons {binding : SourceProtocolBinding} :
    AcceptedRoutes models expand seenRoutes assignedModels (binding :: bindings) ↔
      (ValidRoute models expand binding ∧ bindingKey binding ∉ seenRoutes) ∧
      ((assignments models expand binding).Nodup ∧ ∀ pair ∈ assignments models expand binding, pair ∉ assignedModels) ∧
      AcceptedRoutes models expand (bindingKey binding :: seenRoutes)
        ((assignments models expand binding).reverse ++ assignedModels) bindings := by
  constructor
  · rintro ⟨hvalid, hkeys, hseen, hassigned, hunassigned⟩
    obtain ⟨hkey, hkeys⟩ := List.nodup_cons.mp hkeys
    rw [List.flatMap_cons] at hassigned hunassigned
    obtain ⟨hown, hrest, hdisjoint⟩ := List.nodup_append.mp hassigned
    refine ⟨⟨hvalid _ List.mem_cons_self, hseen _ List.mem_cons_self⟩, ⟨hown, fun pair hpair =>
      hunassigned pair (List.mem_append_left _ hpair)⟩, fun other hother => hvalid _ (List.mem_cons_of_mem _ hother), hkeys,
      fun other hother hmem => ?_, hrest, fun pair hpair hmem => ?_⟩
    · rcases List.mem_cons.mp hmem with heq | hmem
      · exact hkey (heq ▸ List.mem_map_of_mem hother)
      · exact hseen other (List.mem_cons_of_mem _ hother) hmem
    · rcases List.mem_append.mp hmem with hmem | hmem
      · exact hdisjoint pair (List.mem_reverse.mp hmem) pair hpair rfl
      · exact hunassigned pair (List.mem_append_right _ hpair) hmem
  · rintro ⟨⟨hvalid, hseen⟩, ⟨hown, hfresh⟩, hvalids, hkeys, hseens, hrest, hunassigned⟩
    refine ⟨List.forall_mem_cons.mpr ⟨hvalid, hvalids⟩, ?_, List.forall_mem_cons.mpr ⟨hseen, fun other hother hmem =>
      hseens other hother (List.mem_cons_of_mem _ hmem)⟩, ?_, fun pair hpair => ?_⟩
    · refine List.nodup_cons.mpr ⟨fun hmem => ?_, hkeys⟩
      obtain ⟨other, hother, heq⟩ := List.mem_map.mp hmem
      exact hseens other hother (heq ▸ List.mem_cons_self)
    · rw [List.flatMap_cons]
      refine List.nodup_append.mpr ⟨hown, hrest, fun pair hpair pair' hpair' heq => ?_⟩
      exact hunassigned pair' hpair' (List.mem_append_left _ (List.mem_reverse.mpr (heq ▸ hpair)))
    · rw [List.flatMap_cons] at hpair
      rcases List.mem_append.mp hpair with hpair | hpair
      · exact hfresh pair hpair
      · exact fun hmem => hunassigned pair hpair (List.mem_append_right _ hmem)

/-- The routes that the loop accepts, and what it makes of them. -/
theorem normalizeRoutes_eq_ok {bindings result : List SourceProtocolBinding} :
    normalizeRoutes models expand seenRoutes assignedModels bindings = .ok result ↔
      AcceptedRoutes models expand seenRoutes assignedModels bindings ∧ result = bindings.map (normalizedRoute models expand) := by
  induction bindings generalizing seenRoutes assignedModels result with
  | nil =>
    refine ⟨fun h => ⟨⟨nofun, List.nodup_nil, nofun, List.nodup_nil, nofun⟩, (Except.ok.inj h).symm⟩, fun h =>
      congrArg Except.ok h.2.symm⟩
  | cons binding bindings ih =>
    have hpairs : (∀ model ∈ routedIds models expand binding, (binding.wireApi, asciiLower model) ∉ assignedModels) ↔
        ∀ pair ∈ assignments models expand binding, pair ∉ assignedModels := by
      rw [assignments, List.forall_mem_map]
    rw [normalizeRoutes, acceptedRoutes_cons]
    constructor
    · intro h
      obtain ⟨route, hroute, h⟩ := bind_eq_ok.mp h
      obtain ⟨hvalid, hseen, rfl⟩ := normalizeRoute_eq_ok.mp hroute
      split at h
      case h_1 => exact nomatch h
      case h_2 assigned' hassign =>
        obtain ⟨⟨hnodup, hfresh⟩, rfl⟩ := assign_eq_some.mp hassign
        obtain ⟨normalized, hrest, h⟩ := bind_eq_ok.mp h
        obtain ⟨haccepted, rfl⟩ := ih.mp hrest
        exact ⟨⟨⟨hvalid, hseen⟩, ⟨hnodup, hpairs.mp hfresh⟩, haccepted⟩, (Except.ok.inj h).symm⟩
    · rintro ⟨⟨⟨hvalid, hseen⟩, ⟨hnodup, hfresh⟩, haccepted⟩, rfl⟩
      refine bind_eq_ok.mpr ⟨_, normalizeRoute_eq_ok.mpr ⟨hvalid, hseen, rfl⟩, ?_⟩
      have hassign : assign binding.wireApi assignedModels (routedIds models expand binding) =
          some ((assignments models expand binding).reverse ++ assignedModels) :=
        assign_eq_some.mpr ⟨⟨hnodup, hpairs.mpr hfresh⟩, rfl⟩
      show (match assign binding.wireApi assignedModels (routedIds models expand binding) with
        | none => _
        | some assigned => _) = _
      rw [hassign]
      exact bind_eq_ok.mpr ⟨_, ih.mpr ⟨haccepted, rfl⟩, rfl⟩

/-! ## The routing table -/

theorem normal_routedIds (hmodels : NormalIds models) (binding : SourceProtocolBinding) :
    NormalIds (routedIds models expand binding) := by
  unfold routedIds
  split
  case isTrue => exact hmodels
  case isFalse => exact normal_normalizeModelIds binding.modelIds

/-- A normalized route has its models. -/
theorem routedIds_normalizedRoute (hmodels : NormalIds models) (binding : SourceProtocolBinding) :
    routedIds models expand (normalizedRoute models expand binding) = routedIds models expand binding := by
  have hids : normalizeModelIds (normalizedRoute models expand binding).modelIds = routedIds models expand binding :=
    normalizeModelIds_of_normal (normal_routedIds hmodels binding)
  unfold routedIds at hids ⊢
  rw [hids]
  by_cases hempty : normalizeModelIds binding.modelIds = [] ∧ expand = true
  · rw [if_pos hempty, ite_self]
  · rw [if_neg hempty, if_neg hempty]

theorem normalizedRoute_idem (hmodels : NormalIds models) (binding : SourceProtocolBinding) :
    normalizedRoute models expand (normalizedRoute models expand binding) = normalizedRoute models expand binding := by
  show ({ normalizedRoute models expand binding with
    modelIds := routedIds models expand (normalizedRoute models expand binding) } : SourceProtocolBinding) = _
  rw [routedIds_normalizedRoute hmodels]
  rfl

theorem accepted_map_normalizedRoute (hmodels : NormalIds models)
    (h : AcceptedRoutes models expand seenRoutes assignedModels bindings) :
    AcceptedRoutes models expand seenRoutes assignedModels (bindings.map (normalizedRoute models expand)) := by
  have hassignments : (bindings.map (normalizedRoute models expand)).flatMap (assignments models expand) =
      bindings.flatMap (assignments models expand) := by
    rw [List.flatMap_map]
    refine List.flatMap_congr fun binding _ => ?_
    unfold assignments
    rw [routedIds_normalizedRoute hmodels]
    rfl
  refine ⟨List.forall_mem_map.mpr fun binding hbinding => ?_, ?_, List.forall_mem_map.mpr fun binding hbinding => ?_,
    hassignments ▸ h.assigned, hassignments ▸ h.unassigned⟩
  · obtain ⟨hadapter, hwrite, hknown⟩ := h.valid binding hbinding
    exact ⟨hadapter, hwrite, by rw [routedIds_normalizedRoute hmodels]; exact hknown⟩
  · rw [List.map_map]
    exact h.keys
  · exact h.seen binding hbinding

end

variable {bindings result : List SourceProtocolBinding} {fallbackWireApi : WireApi}

/-- What normalizing gives: the routes that the source stands for, if they are accepted. -/
theorem normalize_eq_ok :
    normalizeSourceProtocolBindings bindings fallbackWireApi models = .ok result ↔
      let catalog := normalizeModelIds models
      let routes := effectiveBindings bindings fallbackWireApi catalog
      AcceptedRoutes catalog (expandsEmptyModels routes) [] [] routes ∧
        result = routes.map (normalizedRoute catalog (expandsEmptyModels routes)) :=
  normalizeRoutes_eq_ok

theorem effectiveBindings_ne_nil (bindings : List SourceProtocolBinding) (fallbackWireApi : WireApi) (models : List String) :
    effectiveBindings bindings fallbackWireApi models ≠ [] := by
  unfold effectiveBindings
  split
  case isTrue => exact List.cons_ne_nil _ _
  case isFalse h => exact h

variable {routes : List SourceProtocolBinding}

/-- Only a single native route stands for the catalog. -/
theorem expandsEmptyModels_eq_true {binding : SourceProtocolBinding}
    (hbinding : binding ∈ routes) : expandsEmptyModels routes = true ↔ routes = [binding] ∧ binding.adapter = .native := by
  unfold expandsEmptyModels isPassthrough
  cases routes with
  | nil => exact nomatch hbinding
  | cons route routes =>
    cases routes with
    | nil =>
      obtain rfl := List.mem_singleton.mp hbinding
      simp
    | cons other routes => simp

theorem expandsEmptyModels_map {expand : Bool} (bindings : List SourceProtocolBinding) :
    expandsEmptyModels (bindings.map (normalizedRoute models expand)) = expandsEmptyModels bindings := by
  unfold expandsEmptyModels
  rw [List.length_map, List.head?_map]
  cases bindings.head? <;> rfl

theorem normalize_idem
    (h : normalizeSourceProtocolBindings bindings fallbackWireApi models = .ok result) (fallbackWireApi' : WireApi) :
    normalizeSourceProtocolBindings result fallbackWireApi' models = .ok result := by
  obtain ⟨haccepted, rfl⟩ := normalize_eq_ok.mp h
  have hmodels := normal_normalizeModelIds models
  have hroutes : ∀ routes : List SourceProtocolBinding, routes ≠ [] →
      effectiveBindings routes fallbackWireApi' (normalizeModelIds models) = routes := fun routes hne => if_neg hne
  refine normalize_eq_ok.mpr ?_
  dsimp only
  rw [hroutes _ (mt List.map_eq_nil_iff.mp (effectiveBindings_ne_nil bindings fallbackWireApi _)), expandsEmptyModels_map]
  refine ⟨accepted_map_normalizedRoute hmodels haccepted, ?_⟩
  rw [List.map_map]
  exact List.map_congr_left fun binding _ => (normalizedRoute_idem hmodels binding).symm

/-- The models of the routes of one client protocol. -/
def routedModels (routes : List SourceProtocolBinding) (wireApi : WireApi) : List String :=
  (routes.filter fun route => route.wireApi = wireApi).flatMap (·.modelIds)

theorem routedModels_cons (route : SourceProtocolBinding) (routes : List SourceProtocolBinding) (wireApi : WireApi) :
    routedModels (route :: routes) wireApi =
      (if route.wireApi = wireApi then route.modelIds else []) ++ routedModels routes wireApi := by
  unfold routedModels
  rw [List.filter_cons]
  by_cases hwire : route.wireApi = wireApi
  · rw [if_pos (decide_eq_true hwire), if_pos hwire, List.flatMap_cons]
  · rw [if_neg (by rw [decide_eq_true_eq]; exact hwire), if_neg hwire, List.nil_append]

theorem mem_routedModels {model : String} :
    model ∈ allWireApis.flatMap (routedModels routes) ↔ ∃ route ∈ routes, model ∈ route.modelIds := by
  rw [List.mem_flatMap]
  constructor
  · rintro ⟨wireApi, -, hmodel⟩
    obtain ⟨route, hroute, hmodel⟩ := List.mem_flatMap.mp hmodel
    exact ⟨route, (List.mem_filter.mp hroute).1, hmodel⟩
  · rintro ⟨route, hroute, hmodel⟩
    refine ⟨route.wireApi, by cases route.wireApi <;> decide, List.mem_flatMap.mpr ⟨route, ?_, hmodel⟩⟩
    exact List.mem_filter.mpr ⟨hroute, decide_eq_true rfl⟩

/-- Different assignments are different models of each client protocol. -/
theorem nodup_routedModels {expand : Bool} {bindings : List SourceProtocolBinding}
    (h : (bindings.flatMap (assignments models expand)).Nodup) (wireApi : WireApi) :
    ((routedModels (bindings.map (normalizedRoute models expand)) wireApi).map asciiLower).Nodup := by
  have hpairs : ((routedModels (bindings.map (normalizedRoute models expand)) wireApi).map fun model =>
      (wireApi, asciiLower model)).Sublist (bindings.flatMap (assignments models expand)) := by
    clear h
    induction bindings with
    | nil => exact List.Sublist.refl []
    | cons binding bindings ih =>
      rw [List.map_cons, List.flatMap_cons, routedModels_cons, List.map_append]
      refine List.Sublist.append ?_ ih
      split
      case isTrue hwire =>
        have hsame : assignments models expand binding =
            (normalizedRoute models expand binding).modelIds.map fun model => (wireApi, asciiLower model) := by
          rw [← hwire]
          rfl
        rw [hsame]
      case isFalse => exact List.nil_sublist _
  have hnodup := hpairs.nodup h
  rw [← Function.comp_def (fun text => (wireApi, text)) asciiLower, ← List.map_map] at hnodup
  exact List.Nodup.of_map _ hnodup

/-- The routes are those that the source stands for, in their order. They are different, and so are the models of
each client protocol, in any case; if there is a catalog, it has them all. A route has its models, trimmed and without
blanks and later repetitions, or the catalog if it is the only one, native and without models. Normalizing again
changes nothing, and every routed model is listed once. -/
theorem source_bindings_unambiguous {bindings result : List SourceProtocolBinding} {fallbackWireApi : WireApi}
    {models : List String} (h : normalizeSourceProtocolBindings bindings fallbackWireApi models = .ok result) :
    let catalog := normalizeModelIds models
    let routes := effectiveBindings bindings fallbackWireApi catalog
    result.map bindingKey = routes.map bindingKey ∧ (result.map bindingKey).Nodup ∧
    (∀ wireApi, ((routedModels result wireApi).map asciiLower).Nodup) ∧
    (catalog ≠ [] → ∀ route ∈ result, ∀ model ∈ route.modelIds, asciiLower model ∈ catalog.map asciiLower) ∧
    List.Forall₂ (fun binding route => route.modelIds =
      if normalizeModelIds binding.modelIds = [] ∧ routes = [binding] ∧ binding.adapter = .native then catalog
      else normalizeModelIds binding.modelIds) routes result ∧
    (∀ fallbackWireApi', normalizeSourceProtocolBindings result fallbackWireApi' models = .ok result) ∧
    ∃ listed, runtimeSourceModelsForAnyWireApi bindings fallbackWireApi models = .ok listed ∧
      (listed.map asciiLower).Nodup ∧ (∀ model ∈ listed, ∃ route ∈ result, model ∈ route.modelIds) ∧
      ∀ route ∈ result, ∀ model ∈ route.modelIds, asciiLower model ∈ listed.map asciiLower := by
  obtain ⟨haccepted, hresult⟩ := normalize_eq_ok.mp h
  have hkeys : result.map bindingKey = (effectiveBindings bindings fallbackWireApi (normalizeModelIds models)).map bindingKey := by
    rw [hresult, List.map_map]
    rfl
  refine ⟨hkeys, hkeys ▸ haccepted.keys, fun wireApi => hresult ▸ nodup_routedModels haccepted.assigned wireApi,
    fun hcatalog route hroute model hmodel => ?_, ?_, normalize_idem h,
    keepFirst asciiLower [] (allWireApis.flatMap (routedModels result)), ?_, nodup_keepFirst [] _,
    fun model hmodel => ?_, fun route hroute model hmodel => ?_⟩
  · rw [hresult] at hroute
    obtain ⟨binding, hbinding, rfl⟩ := List.mem_map.mp hroute
    exact (haccepted.valid binding hbinding).known.resolve_left hcatalog model hmodel
  · rw [hresult, List.forall₂_map_right_iff]
    refine List.forall₂_same.mpr fun binding hbinding => ?_
    show routedIds _ _ binding = _
    exact if_congr (and_congr_right fun _ => expandsEmptyModels_eq_true hbinding) rfl rfl
  · exact (congrArg (Except.map _) h).trans rfl
  · exact mem_routedModels.mp ((keepFirst_sublist asciiLower [] _).subset hmodel)
  · exact mem_keys_keepFirst.mpr ⟨List.mem_map_of_mem (mem_routedModels.mpr ⟨route, hroute, hmodel⟩), List.not_mem_nil⟩

/-! ## Samples -/

def mixedRoutes : List SourceProtocolBinding :=
  [{ wireApi := .responses, modelIds := [" gpt ", "GPT", ""] },
   { wireApi := .responses, adapter := .responsesToMessages, modelIds := ["claude"] }]

theorem source_bindings_unambiguous_mixed :
    (fun fallbackWireApi => normalizeSourceProtocolBindings
      [{ wireApi := .responses, modelIds := ["gpt"] },
       { wireApi := .responses, adapter := .responsesToMessages, reasoningMode := .adaptive, modelIds := ["claude"] }]
      fallbackWireApi ["gpt", "claude"]) =
        fun _ => .ok [{ wireApi := .responses, modelIds := ["gpt"] },
          { wireApi := .responses, adapter := .responsesToMessages, reasoningMode := .adaptive, modelIds := ["claude"] }] := by
  have hnormalized : normalizeSourceProtocolBindings mixedRoutes .gemini ["gpt", "claude"] =
      .ok [{ wireApi := .responses, modelIds := ["gpt"] },
        { wireApi := .responses, adapter := .responsesToMessages, reasoningMode := .adaptive, modelIds := ["claude"] }] := by
    decide +kernel
  exact funext (source_bindings_unambiguous hnormalized).2.2.2.2.2.1

/-- A list without routes has one, model ids are trimmed, and they are compared with the catalog in any case. -/
theorem source_bindings_otherwise :
    (¬∀ bindings fallbackWireApi models result, normalizeSourceProtocolBindings bindings fallbackWireApi models = .ok result →
      result.map bindingKey = bindings.map bindingKey) ∧
    (¬∀ bindings fallbackWireApi models result, normalizeSourceProtocolBindings bindings fallbackWireApi models = .ok result →
      ∀ route ∈ result, ∀ model ∈ route.modelIds, ∃ binding ∈ bindings, model ∈ binding.modelIds ∨ model ∈ models) ∧
    ¬∀ bindings fallbackWireApi models result, normalizeSourceProtocolBindings bindings fallbackWireApi models = .ok result →
      normalizeModelIds models ≠ [] → ∀ route ∈ result, ∀ model ∈ route.modelIds, model ∈ normalizeModelIds models := by
  refine ⟨fun h => ?_, fun h => ?_, fun h => ?_⟩
  · exact nomatch h [] .gemini [] [legacy .gemini []] (by decide +kernel)
  · obtain ⟨binding, hbinding, hmodel⟩ := h [{ wireApi := .gemini, modelIds := [" m "] }] .gemini []
      [{ wireApi := .gemini, modelIds := ["m"] }] (by decide +kernel) _ List.mem_cons_self "m" List.mem_cons_self
    rw [List.mem_singleton.mp hbinding] at hmodel
    exact absurd hmodel (by decide +kernel)
  · exact absurd (h [{ wireApi := .gemini, modelIds := ["m"] }] .gemini ["M"] [{ wireApi := .gemini, modelIds := ["m"] }]
      (by decide +kernel) (by decide +kernel) _ List.mem_cons_self "m" List.mem_cons_self) (by decide +kernel)

end Zenith.Sources
