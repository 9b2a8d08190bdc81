import Mathlib
import Zenith.Profiles.ManagedDocument

/-!
# Profiles that are bound to the gateway

`Bound p document b d`: the disk `d` holds a binding, with the backup `b`, of the profile that was `p`
before. This is what an attach that was cut short leaves, and what an interrupted restore or refresh
keeps: the configuration is the one from before, the managed one or the restored one, the catalog is one
the backup knows, and the secret is there or already gone. The files may be in any such combination.

`inspectRestore_of_bound` is what a restore finds there.
-/

namespace Zenith.Profiles

open Zenith.Faults Zenith.Text

/-- A file that is absent or UTF-8 text. -/
def Readable (content : Option Content) : Prop := ∀ bytes, content ≠ some (.binary bytes)

/-- What the backup says of the profile from before the attach, and of the managed files. -/
structure Records (env : Env) (p : Disk) (document : Document) (b : ProfileBackup) : Prop where
  version : b.version = 1
  modelProvider : b.previousModelProvider = rootModelProvider document
  modelCatalog : b.previousModelCatalogJson = rootModelCatalogJson document
  effort : b.previousModelReasoningEffort = rootModelReasoningEffort document
  effortCleared : b.managedModelReasoningEffortCleared = true
  authHash : b.previousAuthHash = (p.files .auth).map env.sha256Hex
  secretRef : b.previousAuthSecretRef = (previousAuthText (p.files .auth)).map fun _ => backupSecretRef
  isHash : isHash b.managedKeyHash = true
  baseUrl : trimEndMatches b.managedBaseUrl '/' = b.managedBaseUrl
  oauth : oauthMetadataValid b = true
  catalogPath : ∀ path ∈ b.managedModelCatalogPath, path = env.catalogPath
  pendingRemove : b.managedModelCatalogPendingRemove = false

/-- The document of a bound profile: the one from before, the restored one or the managed one. -/
inductive DocumentState (env : Env) (document : Document) (b : ProfileBackup) : Document → Prop
  | original : DocumentState env document b document
  | restored : DocumentState env document b (settle document)
  | managed {localKey : String} {supportsWebsockets : Bool} :
      trim localKey = localKey → keyHash env localKey = b.managedKeyHash →
      b.managedSupportsWebsockets = some supportsWebsockets →
      DocumentState env document b (managedDocument document localKey supportsWebsockets b)

structure Bound (env : Env) (p : Disk) (document : Document) (b : ProfileBackup) (d : Disk) : Prop where
  config_before : readConfig env (p.files .config) = .ok document
  attachable : Attachable document
  auth_before : Readable (p.files .auth)
  records : Records env p document b
  backup : d.files .backup = some (.text (env.writeBackup b))
  catalog : validManagedModelCatalog env b (d.files .catalog) = true
  config : ∃ current, readConfig env (d.files .config) = .ok current ∧ DocumentState env document b current
  auth : Readable (d.files .auth)
  secret : d.secrets backupSecretRef = previousAuthText (p.files .auth) ∨ d.secrets backupSecretRef = none

section
variable {env : Env}

theorem isHash_sha256Hex (h : env.Lawful) (content : Content) : isHash (env.sha256Hex content) = true :=
  decide_eq_true (h.length_sha256Hex content)

variable {content : Option Content}

theorem snapshotText_of_readable (env : Env) (h : Readable content) (file : File) :
    ∃ text, snapshotText env file content = .ok text ∧ content = text.map Content.text := by
  rcases content with _ | (text | bytes)
  · exact ⟨none, rfl, rfl⟩
  · exact ⟨some text, rfl, rfl⟩
  · exact absurd rfl (h bytes)

theorem readable_of_snapshotText {file : File} {text : Option String}
    (h : snapshotText env file content = .ok text) : Readable content := by
  rintro bytes rfl
  exact nomatch h

@[simp] theorem parseBackupSnapshot_writeBackup (h : env.Lawful) (b : ProfileBackup) :
    parseBackupSnapshot env (some (.text (env.writeBackup b))) = .ok (some b) := by
  rw [parseBackupSnapshot, snapshotText]
  dsimp only
  rw [h.read_write]

/-! ## The document -/

section
variable {document : Document} {b : ProfileBackup} {p : Disk}

theorem lookup_managedProvider (baseUrl localKey : String) (ws : Bool) :
    (managedProvider baseUrl localKey ws).lookup "name" = some (.string "Zenith Relay Local") ∧
    (managedProvider baseUrl localKey ws).lookup "base_url" = some (.string baseUrl) ∧
    (managedProvider baseUrl localKey ws).lookup "wire_api" = some (.string "responses") ∧
    (managedProvider baseUrl localKey ws).lookup "requires_openai_auth" = some (.boolean true) ∧
    (managedProvider baseUrl localKey ws).lookup "experimental_bearer_token" = some (.string localKey) ∧
    (managedProvider baseUrl localKey ws).lookup "supports_websockets" = some (.boolean ws) := by
  refine ⟨?_, ?_, ?_, ?_, ?_, ?_⟩ <;> simp [managedProvider, Finmap.lookup_insert_of_ne]

theorem managedProviderMatches_managedDocument {localKey : String} {ws : Bool}
    (hbase : trimEndMatches b.managedBaseUrl '/' = b.managedBaseUrl) (hkey : trim localKey = localKey)
    (hhash : keyHash env localKey = b.managedKeyHash) (hws : b.managedSupportsWebsockets = some ws) :
    managedProviderMatches env (managedDocument document localKey ws b) b = true := by
  obtain ⟨hname, hurl, hwire, hopenai, htoken, hwebsockets⟩ :=
    lookup_managedProvider b.managedBaseUrl localKey ws
  rw [managedProviderMatches, modelProviders_managedDocument, Option.bind_some, Finmap.lookup_insert,
    Option.bind_some]
  simp [SubItem.asTable, TomlValue.asStr, TomlValue.asBool, hname, hurl, hwire, hopenai, htoken, hwebsockets,
    hbase, hkey, hhash, hws]

variable {current : Document}

/-- A document of a bound profile has a shape that a restore accepts. -/
theorem DocumentState.validate (h : Attachable document)
    (hcurrent : DocumentState env document b current) : validateConfigShape current = .ok () := by
  cases hcurrent with
  | original => exact validateConfigShape_eq_ok.mpr ⟨h.modelProvider, h.modelProviders, h.reasoningEffort⟩
  | restored => exact validateConfigShape_settle h
  | managed => exact validateConfigShape_managedDocument

theorem rootModelProvider_settle (h : Attachable document) :
    rootModelProvider (settle document) = rootModelProvider document := by
  rw [rootModelProvider, rootString, lookup_settle h, if_neg (by decide), if_neg (by decide)]
  rfl

theorem rootModelCatalogJson_settle (h : Attachable document) :
    rootModelCatalogJson (settle document) = rootModelCatalogJson document :=
  rootString_of_lookup (by rw [lookup_settle h, if_pos rfl])

theorem rootModelReasoningEffort_settle (h : Attachable document) :
    rootModelReasoningEffort (settle document) = rootModelReasoningEffort document := by
  rw [rootModelReasoningEffort, rootString, lookup_settle h, if_neg (by decide), if_neg (by decide)]
  rfl

/-- A restore recognises the document as the managed one or as the one from before. -/
theorem DocumentState.recognised (h : Attachable document) (hr : Records env p document b)
    (hcurrent : DocumentState env document b current) :
    managedConfigMatches env current b = true ∨ previousConfigMatches current b = true := by
  cases hcurrent with
  | original =>
    refine .inr ?_
    rw [previousConfigMatches, hr.modelProvider, hr.modelCatalog]
    simp
  | restored =>
    refine .inr ?_
    rw [previousConfigMatches, rootModelProvider_settle h, rootModelCatalogJson_settle h, hr.modelProvider,
      hr.modelCatalog]
    simp
  | managed hkey hhash hws =>
    refine .inl ?_
    rw [managedConfigMatches, managedProviderMatches_managedDocument hr.baseUrl hkey hhash hws,
      rootModelProvider_managedDocument, rootModelCatalogJson_managedDocument]
    cases b.managedModelCatalogPath <;> simp

theorem lookup_restoreConfig_managed (h : Attachable document) (hr : Records env p document b)
    (hcurrent : DocumentState env document b current) (k : String)
    (hk : k ≠ "model_reasoning_effort") :
    (restoreConfig current b.previousModelProvider b.previousModelCatalogJson).lookup k =
      (settle document).lookup k := by
  rw [lookup_restoreConfig, lookup_settle h, hr.modelCatalog, hr.modelProvider]
  split_ifs with hcatalog hprovider hproviders
  · rfl
  · exact absurd (hprovider.symm.trans hproviders) (by decide)
  · rw [hprovider]
    exact (lookup_eq_map_rootString h.modelProvider).symm
  · cases hcurrent with
    | original => exact bind_withoutManaged h.noProvider
    | managed => exact withoutManaged_managedDocument h
    | restored =>
      rw [bind_withoutManaged (documentHasProvider_settle h), lookup_settle h, if_neg (by decide), if_pos rfl,
        keptProviders_idem]
  · cases hcurrent with
    | original => rfl
    | managed => rw [lookup_managedDocument, if_neg ‹_›, if_neg ‹_›, if_neg ‹_›, if_neg hk]
    | restored => rw [lookup_settle h, if_neg ‹_›, if_neg ‹_›]

/-- Whatever document a restore finds, it writes the settled one. -/
theorem restoreLocalConfig_eq_settle (h : Attachable document) (hr : Records env p document b)
    (hcurrent : DocumentState env document b current) :
    restoreLocalConfig current b b.previousModelCatalogJson (rootModelReasoningEffort current) =
      settle document := by
  refine Finmap.ext_lookup fun k => ?_
  rw [lookup_restoreLocalConfig hr.effortCleared]
  by_cases hk : k = "model_reasoning_effort"
  · rw [if_pos hk]
    have heffort : (rootModelReasoningEffort document).map Item.ofStr = (settle document).lookup k := by
      rw [lookup_settle h, if_neg (by rw [hk]; decide), if_neg (by rw [hk]; decide), hk]
      exact (lookup_eq_map_rootString h.reasoningEffort).symm
    rw [← heffort, hr.effort]
    cases hcurrent with
    | original => simp
    | restored => simp [rootModelReasoningEffort_settle h]
    | managed => rw [rootModelReasoningEffort_managedDocument, if_pos rfl]
  · rw [if_neg hk]
    exact lookup_restoreConfig_managed h hr hcurrent k hk

end

/-! ## What a restore finds -/

theorem managedAuthMatchesSnapshot_of_readable (h : Readable content)
    (b : ProfileBackup) : ∃ managed, managedAuthMatchesSnapshot env content b = .ok managed := by
  have hmatches (p : Json → Bool) : ∃ result, snapshotMatches env content p = .ok result := by
    obtain ⟨text, htext, -⟩ := snapshotText_of_readable env h .auth
    exact ⟨_, by rw [snapshotMatches, htext]⟩
  rw [managedAuthMatchesSnapshot]
  split
  · split
    · exact hmatches _
    · exact ⟨false, rfl⟩
  · split
    · exact hmatches _
    · exact ⟨false, rfl⟩
  · exact hmatches _
  · exact ⟨false, rfl⟩

section
variable {p d : Disk} {document : Document} {b : ProfileBackup}

variable {text : String}

theorem previousAuthText_eq_some {content : Option Content}
    (h : previousAuthText content = some text) : content = some (.text text) ∧ trim text ≠ "" := by
  unfold previousAuthText at h
  split at h
  · split at h
    · obtain rfl := Option.some.inj h
      exact ⟨rfl, ‹_›⟩
    · exact nomatch h
  · exact nomatch h

/-- The digest of the previous authentication is that of the secret, where there is one. -/
theorem Records.keyHash_secret (hr : Records env p document b)
    (h : previousAuthText (p.files .auth) = some text) : b.previousAuthHash = some (keyHash env text) := by
  rw [hr.authHash, (previousAuthText_eq_some h).1]
  rfl

theorem Bound.secret_eq (hb : Bound env p document b d)
    (h : b.previousAuthSecretRef.bind d.secrets = some text) :
    previousAuthText (p.files .auth) = some text := by
  rw [hb.records.secretRef] at h
  cases hprevious : previousAuthText (p.files .auth) with
  | none =>
    rw [hprevious] at h
    exact nomatch h
  | some previous =>
    rw [hprevious, Option.map_some, Option.bind_some] at h
    rcases hb.secret with hsecret | hsecret
    · rw [← hprevious, ← hsecret, h]
    · exact nomatch hsecret.symm.trans h

theorem inspectRestore_of_bound (h : env.Lawful) (hb : Bound env p document b d) {current : Document}
    (hcurrent : readConfig env (d.files .config) = .ok current)
    (hstate : DocumentState env document b current) {managed : Bool}
    (hmanaged : managedAuthMatchesSnapshot env (d.files .auth) b = .ok managed) :
    inspectRestore env d =
      if !managed && !previousAuthMatchesSnapshot env (d.files .auth) b then .error profileRestoreBlocked
      else if managed && b.previousAuthSecretRef.isSome &&
          (b.previousAuthSecretRef.bind d.secrets).isNone then
        .error ⟨.recoveryRequired, "ChatGPT profile backup secret is missing"⟩
      else .ok (some ⟨b, current, b.previousAuthSecretRef.bind d.secrets,
        previousAuthMatchesSnapshot env (d.files .auth) b⟩) := by
  have hrecognised := hstate.recognised hb.attachable hb.records
  have hhash : b.previousAuthHash.or ((b.previousAuthSecretRef.bind d.secrets).map (keyHash env)) =
      b.previousAuthHash := by
    cases hsecret : b.previousAuthSecretRef.bind d.secrets with
    | none => simp
    | some text => rw [hb.records.keyHash_secret (hb.secret_eq hsecret)]; rfl
  have hintegrity : (b.previousAuthHash.any fun expected =>
      (b.previousAuthSecretRef.bind d.secrets).any fun content => keyHash env content ≠ expected) = false := by
    cases hsecret : b.previousAuthSecretRef.bind d.secrets with
    | none => cases b.previousAuthHash <;> rfl
    | some text => simp [hb.records.keyHash_secret (hb.secret_eq hsecret)]
  rw [inspectRestore, hb.backup, parseBackupSnapshot_writeBackup h]
  simp only [bind, Except.bind, pure, Except.pure, hb.catalog, hcurrent, hstate.validate hb.attachable, hhash,
    hintegrity, hmanaged, Bool.not_true, Bool.false_eq_true, if_false]
  rw [if_neg (by simpa using fun hm => hrecognised.resolve_left (by simp [hm]))]

end

end

end Zenith.Profiles
