import Mathlib
import Zenith.Profiles.AccountBinding

/-!
# What attach and restore do to a document

A restore does not give every document back: a `model_catalog_json` that is not a string is dropped, and
an empty `model_providers` table with it. `settle` is the document that a restore leaves, whether it finds
the managed configuration, the one from before the attach, or its own result. `Kept` says when that is the
document from before.
-/

namespace Zenith.Profiles

open Zenith.Text

/-- A document whose shape the attach accepts, without the managed provider. -/
structure Attachable (document : Document) : Prop where
  modelProvider : ∀ item, document.lookup "model_provider" = some item → ∃ s, item = .ofStr s
  modelProviders : ∀ item, document.lookup "model_providers" = some item → ∃ entries, item = .table entries
  reasoningEffort : ∀ item, document.lookup "model_reasoning_effort" = some item → ∃ s, item = .ofStr s
  noProvider : documentHasProvider document = false

theorem item_of_asStr {item : Item} {s : String} (h : item.asStr = some s) : item = .ofStr s := by
  obtain _ | (s | b | t) := item
  case value.string => exact congrArg Item.ofStr (Option.some.inj h)
  all_goals exact nomatch h

@[simp] theorem asStr_ofStr (s : String) : (Item.ofStr s).asStr = some s := rfl

variable {document : Document} {key : String}

theorem rootString_of_lookup {s : Option String}
    (h : document.lookup key = s.map Item.ofStr) : rootString document key = s := by
  rw [rootString, h]
  cases s <;> rfl

/-- A root key that holds a string, or nothing, is the string that is read there. -/
theorem lookup_eq_map_rootString (h : ∀ item, document.lookup key = some item → ∃ s, item = .ofStr s) :
    document.lookup key = (rootString document key).map Item.ofStr := by
  rw [rootString]
  cases hitem : document.lookup key with
  | none => rfl
  | some item =>
    obtain ⟨s, rfl⟩ := h item hitem
    rfl

theorem validateConfigShape_eq_ok :
    validateConfigShape document = .ok () ↔
      (∀ item, document.lookup "model_provider" = some item → ∃ s, item = .ofStr s) ∧
      (∀ item, document.lookup "model_providers" = some item → ∃ entries, item = .table entries) ∧
      (∀ item, document.lookup "model_reasoning_effort" = some item → ∃ s, item = .ofStr s) := by
  have string (key : String) :
      ¬((document.lookup key).isSome ∧ rootString document key = none) ↔
        ∀ item, document.lookup key = some item → ∃ s, item = .ofStr s := by
    rw [rootString]
    cases document.lookup key with
    | none => simp
    | some item =>
      constructor
      · intro h item' heq
        obtain rfl := Option.some.inj heq
        obtain ⟨s, hs⟩ := Option.ne_none_iff_exists'.mp fun hnone => h ⟨rfl, hnone⟩
        exact ⟨s, item_of_asStr hs⟩
      · rintro h ⟨-, hnone⟩
        obtain ⟨s, rfl⟩ := h item rfl
        cases hnone
  have table : ¬((document.lookup "model_providers").isSome ∧ modelProviders document = none) ↔
      ∀ item, document.lookup "model_providers" = some item → ∃ entries, item = .table entries := by
    rw [modelProviders]
    rcases document.lookup "model_providers" with _ | entries | v <;> simp [Item.asTable]
  rw [← string, ← table, ← string, validateConfigShape]
  by_cases hprovider : (document.lookup "model_provider").isSome ∧ rootModelProvider document = none
  · rw [if_pos hprovider]
    exact iff_of_false (by rintro ⟨⟩) fun h => h.1 hprovider
  · rw [if_neg hprovider]
    by_cases hproviders : (document.lookup "model_providers").isSome ∧ modelProviders document = none
    · rw [if_pos hproviders]
      exact iff_of_false (by rintro ⟨⟩) fun h => h.2.1 hproviders
    · rw [if_neg hproviders]
      by_cases heffort : (document.lookup "model_reasoning_effort").isSome ∧
          rootModelReasoningEffort document = none
      · rw [if_pos heffort]
        exact iff_of_false (by rintro ⟨⟩) fun h => h.2.2 heffort
      · rw [if_neg heffort]
        exact iff_of_true rfl ⟨hprovider, hproviders, heffort⟩

theorem attachable_of (hshape : validateConfigShape document = .ok ())
    (hprovider : documentHasProvider document = false) : Attachable document where
  modelProvider := (validateConfigShape_eq_ok.mp hshape).1
  modelProviders := (validateConfigShape_eq_ok.mp hshape).2.1
  reasoningEffort := (validateConfigShape_eq_ok.mp hshape).2.2
  noProvider := hprovider

/-- The entry of `model_providers` that a restore leaves. -/
def keptProviders : Option Item → Option Item
  | some (.table entries) => if entries = ∅ then none else some (.table entries)
  | item => item

/-- The document that a restore leaves. -/
def settle (document : Document) : Document :=
  restoreRootString (removeManagedProvider document) "model_catalog_json" (rootModelCatalogJson document)

/-- A document that a restore gives back. -/
structure Kept (document : Document) : Prop where
  modelCatalog : ∀ item, document.lookup "model_catalog_json" = some item → ∃ s, item = .ofStr s
  modelProviders : document.lookup "model_providers" ≠ some (.table ∅)

theorem erase_of_lookup_none {entries : TomlTable SubItem}
    (h : entries.lookup key = none) : entries.erase key = entries := by
  refine Finmap.ext_lookup fun k => ?_
  by_cases hk : k = key
  · rw [hk, Finmap.lookup_erase, h]
  · exact Finmap.lookup_erase_ne hk

theorem erase_insert_self {entries : TomlTable SubItem} {item : SubItem} :
    (entries.insert key item).erase key = entries.erase key := by
  refine Finmap.ext_lookup fun k => ?_
  by_cases hk : k = key
  · rw [hk, Finmap.lookup_erase, Finmap.lookup_erase]
  · rw [Finmap.lookup_erase_ne hk, Finmap.lookup_erase_ne hk, Finmap.lookup_insert_of_ne _ hk]

section
variable {document : Document}

/-- Without the managed provider, only an empty table is dropped. -/
theorem bind_withoutManaged (h : documentHasProvider document = false) :
    (document.lookup "model_providers").bind withoutManaged =
      keptProviders (document.lookup "model_providers") := by
  rw [documentHasProvider, modelProviders] at h
  rcases hitem : document.lookup "model_providers" with _ | entries | v
  case none => rfl
  case some.value => rfl
  case some.table =>
    rw [hitem] at h
    have hnone : entries.lookup providerId = none := by
      cases hentry : entries.lookup providerId with
      | none => rfl
      | some item => simp [Item.asTable, hentry] at h
    rw [Option.bind_some, withoutManaged, erase_of_lookup_none hnone]
    rfl

theorem lookup_restoreConfig (provider catalog : Option String) (k : String) :
    (restoreConfig document provider catalog).lookup k =
      if k = "model_catalog_json" then catalog.map Item.ofStr
      else if k = "model_provider" then provider.map Item.ofStr
      else if k = "model_providers" then (document.lookup "model_providers").bind withoutManaged
      else document.lookup k := by
  rw [restoreConfig, lookup_restoreRootString, lookup_restoreRootString, lookup_removeManagedProvider]
  by_cases hk : k = "model_providers"
  · subst hk
    rfl
  · rw [if_neg hk, if_neg hk]

/-- What `restore_local_config` leaves at each key, for a backup of an attach. -/
theorem lookup_restoreLocalConfig {backup : ProfileBackup}
    (hcleared : backup.managedModelReasoningEffortCleared = true) (catalog effort : Option String)
    (k : String) :
    (restoreLocalConfig document backup catalog effort).lookup k =
      if k = "model_reasoning_effort" then
        (if effort = backup.managedModelReasoningEffort then backup.previousModelReasoningEffort
          else effort.or backup.previousModelReasoningEffort).map Item.ofStr
      else (restoreConfig document backup.previousModelProvider catalog).lookup k := by
  rw [restoreLocalConfig, if_pos hcleared, lookup_restoreRootString]

theorem lookup_settle (h : Attachable document) (k : String) :
    (settle document).lookup k =
      if k = "model_catalog_json" then (rootModelCatalogJson document).map Item.ofStr
      else if k = "model_providers" then keptProviders (document.lookup "model_providers")
      else document.lookup k := by
  rw [settle, lookup_restoreRootString, lookup_removeManagedProvider]
  by_cases hk : k = "model_providers"
  · subst hk
    rw [if_pos rfl, if_pos rfl, bind_withoutManaged h.noProvider]
  · rw [if_neg hk, if_neg hk]

@[simp] theorem keptProviders_idem (item : Option Item) : keptProviders (keptProviders item) = keptProviders item := by
  rcases item with _ | entries | v
  case none => rfl
  case some.value => rfl
  case some.table =>
    by_cases hempty : entries = ∅
    · rw [keptProviders, if_pos hempty]
      rfl
    · simp [keptProviders, hempty]

theorem documentHasProvider_settle (h : Attachable document) :
    documentHasProvider (settle document) = false := by
  have hprovider := h.noProvider
  rw [documentHasProvider, modelProviders] at hprovider ⊢
  rw [lookup_settle h, if_neg (by decide), if_pos rfl]
  rcases hitem : document.lookup "model_providers" with _ | entries | v
  case none => rfl
  case some.value => rfl
  case some.table =>
    rw [hitem] at hprovider
    by_cases hempty : entries = ∅
    · rw [keptProviders, if_pos hempty]
      rfl
    · rw [keptProviders, if_neg hempty]
      exact hprovider

theorem settle_eq_iff (h : Attachable document) : settle document = document ↔ Kept document := by
  constructor
  · intro heq
    have hat (k : String) : (settle document).lookup k = document.lookup k := by rw [heq]
    refine ⟨fun item hitem => ?_, fun hempty => ?_⟩
    · have hcatalog := hat "model_catalog_json"
      rw [lookup_settle h, if_pos rfl, hitem] at hcatalog
      obtain ⟨s, -, hs⟩ := Option.map_eq_some_iff.mp hcatalog
      exact ⟨s, hs.symm⟩
    · have hproviders := hat "model_providers"
      rw [lookup_settle h, if_neg (by decide), if_pos rfl, hempty, keptProviders, if_pos rfl] at hproviders
      exact nomatch hproviders
  · intro hkept
    refine Finmap.ext_lookup fun k => ?_
    rw [lookup_settle h]
    split_ifs with hcatalog hproviders
    · rw [hcatalog]
      exact (lookup_eq_map_rootString hkept.modelCatalog).symm
    · subst hproviders
      have hne := hkept.modelProviders
      rcases hitem : document.lookup "model_providers" with _ | entries | v
      case none => rfl
      case some.value => rfl
      case some.table =>
        rw [hitem] at hne
        exact if_neg fun hempty => hne (by rw [hempty])
    · rfl

end

/-! ## The managed document -/

/-- The document an attach writes, for the backup it leaves behind. -/
def managedDocument (document : Document) (localKey : String) (supportsWebsockets : Bool)
    (backup : ProfileBackup) : Document :=
  attachConfig document backup.managedBaseUrl localKey backup.managedModelCatalogPath
    backup.previousModelCatalogJson backup.managedModelReasoningEffort supportsWebsockets

section
variable {document : Document} {localKey : String} {supportsWebsockets : Bool} {backup : ProfileBackup}

theorem lookup_managedDocument (k : String) :
    (managedDocument document localKey supportsWebsockets backup).lookup k =
      if k = "model_providers" then
        some (.table (((modelProviders document).getD ∅).insert providerId
          (.table (managedProvider backup.managedBaseUrl localKey supportsWebsockets))))
      else if k = "model_catalog_json" then
        (backup.managedModelCatalogPath.or backup.previousModelCatalogJson).map Item.ofStr
      else if k = "model_provider" then some (.ofStr providerId)
      else if k = "model_reasoning_effort" then backup.managedModelReasoningEffort.map Item.ofStr
      else document.lookup k := by
  rw [managedDocument, attachConfig]
  have hproviders : modelProviders (restoreRootString ((restoreRootString document
      "model_reasoning_effort" backup.managedModelReasoningEffort).insert "model_provider"
      (.ofStr providerId)) "model_catalog_json"
      (backup.managedModelCatalogPath.or backup.previousModelCatalogJson)) = modelProviders document := by
    rw [modelProviders, lookup_restoreRootString, if_neg (by decide), lookup_insert, if_neg (by decide),
      lookup_restoreRootString, if_neg (by decide)]
    rfl
  simp only [hproviders, lookup_insert, lookup_restoreRootString]

theorem modelProviders_managedDocument :
    modelProviders (managedDocument document localKey supportsWebsockets backup) =
      some (((modelProviders document).getD ∅).insert providerId
        (.table (managedProvider backup.managedBaseUrl localKey supportsWebsockets))) := by
  rw [modelProviders, lookup_managedDocument, if_pos rfl]
  rfl

theorem rootModelProvider_managedDocument :
    rootModelProvider (managedDocument document localKey supportsWebsockets backup) = some providerId :=
  rootString_of_lookup (s := some providerId) (by
    rw [lookup_managedDocument, if_neg (by decide), if_neg (by decide), if_pos rfl]
    rfl)

theorem rootModelCatalogJson_managedDocument :
    rootModelCatalogJson (managedDocument document localKey supportsWebsockets backup) =
      backup.managedModelCatalogPath.or backup.previousModelCatalogJson :=
  rootString_of_lookup (by rw [lookup_managedDocument, if_neg (by decide), if_pos rfl])

theorem rootModelReasoningEffort_managedDocument :
    rootModelReasoningEffort (managedDocument document localKey supportsWebsockets backup) =
      backup.managedModelReasoningEffort :=
  rootString_of_lookup (by
    rw [lookup_managedDocument, if_neg (by decide), if_neg (by decide), if_neg (by decide), if_pos rfl])

/-- The managed provider in a document leaves nothing behind when it is removed. -/
theorem withoutManaged_managedDocument (h : Attachable document) :
    ((managedDocument document localKey supportsWebsockets backup).lookup "model_providers").bind
      withoutManaged = keptProviders (document.lookup "model_providers") := by
  rw [lookup_managedDocument, if_pos rfl]
  rw [Option.bind_some, withoutManaged, erase_insert_self, ← bind_withoutManaged h.noProvider, modelProviders]
  rcases hitem : document.lookup "model_providers" with _ | entries | v
  case none => rfl
  case some.table => rfl
  case some.value =>
    obtain ⟨entries, heq⟩ := h.modelProviders _ hitem
    cases heq

theorem validateConfigShape_managedDocument :
    validateConfigShape (managedDocument document localKey supportsWebsockets backup) = .ok () := by
  refine validateConfigShape_eq_ok.mpr ⟨fun item hitem => ?_, fun item hitem => ?_, fun item hitem => ?_⟩
  · rw [lookup_managedDocument, if_neg (by decide), if_neg (by decide), if_pos rfl] at hitem
    exact ⟨_, (Option.some.inj hitem).symm⟩
  · rw [lookup_managedDocument, if_pos rfl] at hitem
    exact ⟨_, (Option.some.inj hitem).symm⟩
  · rw [lookup_managedDocument, if_neg (by decide), if_neg (by decide), if_neg (by decide),
      if_pos rfl] at hitem
    obtain ⟨s, -, rfl⟩ := Option.map_eq_some_iff.mp hitem
    exact ⟨s, rfl⟩

theorem validateConfigShape_settle (h : Attachable document) :
    validateConfigShape (settle document) = .ok () := by
  refine validateConfigShape_eq_ok.mpr ⟨fun item hitem => ?_, fun item hitem => ?_, fun item hitem => ?_⟩
  · rw [lookup_settle h, if_neg (by decide), if_neg (by decide)] at hitem
    exact h.modelProvider item hitem
  · rw [lookup_settle h, if_neg (by decide), if_pos rfl] at hitem
    rcases hentries : document.lookup "model_providers" with _ | entries | v <;> rw [hentries] at hitem
    case none => exact nomatch hitem
    case some.table =>
      rw [keptProviders] at hitem
      split at hitem
      case isTrue => exact nomatch hitem
      case isFalse => exact ⟨entries, (Option.some.inj hitem).symm⟩
    case some.value =>
      obtain ⟨entries, heq⟩ := h.modelProviders _ hentries
      exact nomatch heq
  · rw [lookup_settle h, if_neg (by decide), if_neg (by decide)] at hitem
    exact h.reasoningEffort item hitem

end

end Zenith.Profiles
