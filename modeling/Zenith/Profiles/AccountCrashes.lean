import Mathlib
import Zenith.Profiles.Reversible

/-!
# The account binding after a crash

An attach to an account writes its backup, then the configuration, then the authentication; a restore goes
the same way and then removes the backup. Both ask the files to be the managed ones already, by the digest
in the backup. `AccountBound` holds of every disk in between, `accountRecovers_iff` says on which of them a
later restore or attach gets any further, and whether the restore gives the profile back.
-/

namespace Zenith.Profiles

open Zenith.Accounts Zenith.Faults Zenith.Text Zenith.Tables

/-! ## Documents -/

/-- What an attach to an account and a restore keep of the document from before. -/
structure AccountDocument (document current : Document) : Prop where
  shape : validateConfigShape current = .ok ()
  modelCatalog : rootModelCatalogJson current = rootModelCatalogJson document
  modelProviders : (current.lookup "model_providers").bind withoutManaged =
    keptProviders (document.lookup "model_providers")
  baseUrl : current.lookup "openai_base_url" = document.lookup "openai_base_url" ∨
    current.lookup "openai_base_url" = (rootOpenaiBaseUrl document).map Item.ofStr ∨
    current.lookup "openai_base_url" = none
  others : ∀ k, k ≠ "model_provider" → k ≠ "model_providers" → k ≠ "model_catalog_json" →
    k ≠ "openai_base_url" → current.lookup k = document.lookup k

section
variable {document current : Document}

theorem accountDocument_self (h : Attachable document) : AccountDocument document document where
  shape := validateConfigShape_eq_ok.mpr ⟨h.modelProvider, h.modelProviders, h.reasoningEffort⟩
  modelCatalog := rfl
  modelProviders := bind_withoutManaged h.noProvider
  baseUrl := .inl rfl
  others _ _ _ _ _ := rfl

theorem lookup_attachAccountConfig (k : String) :
    (attachAccountConfig document).lookup k =
      if k = "openai_base_url" ∨ k = "model_provider" then none
      else if k = "model_catalog_json" then (rootModelCatalogJson document).map Item.ofStr
      else if k = "model_providers" then (document.lookup "model_providers").bind withoutManaged
      else document.lookup k := by
  rw [attachAccountConfig]
  by_cases hurl : k = "openai_base_url"
  · rw [if_pos (.inl hurl), hurl, Finmap.lookup_erase]
  · rw [Finmap.lookup_erase_ne hurl, lookup_restoreConfig]
    by_cases hprovider : k = "model_provider"
    · subst hprovider
      rw [if_neg (by decide), if_pos rfl, if_pos (.inr rfl)]
      rfl
    · rw [if_neg hprovider, if_neg (not_or.mpr ⟨hurl, hprovider⟩)]

theorem lookup_restoreAccountConfig (backup : AccountProfileBackup) (k : String) :
    (restoreAccountConfig document backup).lookup k =
      if k = "openai_base_url" then
        (backup.previousOpenaiBaseUrl.map Item.ofStr).or (document.lookup "openai_base_url")
      else if k = "model_catalog_json" then (rootModelCatalogJson document).map Item.ofStr
      else if k = "model_provider" then backup.previousModelProvider.map Item.ofStr
      else if k = "model_providers" then (document.lookup "model_providers").bind withoutManaged
      else document.lookup k := by
  rw [restoreAccountConfig]
  cases backup.previousOpenaiBaseUrl with
  | none =>
    show (restoreConfig _ _ _).lookup k = _
    rw [lookup_restoreConfig]
    by_cases hurl : k = "openai_base_url"
    · subst hurl
      rw [if_neg (by decide), if_neg (by decide), if_neg (by decide), if_pos rfl]
      rfl
    · rw [if_neg hurl]
  | some baseUrl =>
    show ((restoreConfig _ _ _).insert _ _).lookup k = _
    rw [lookup_insert, lookup_restoreConfig]
    rfl

/-- What is left of the providers without the managed one is left when it is taken out again. -/
theorem bind_withoutManaged_kept (h : AccountDocument document current) :
    ((current.lookup "model_providers").bind withoutManaged).bind withoutManaged =
      keptProviders (document.lookup "model_providers") := by
  rw [← h.modelProviders]
  rcases current.lookup "model_providers" with _ | entries | v
  · rfl
  · rw [Option.bind_some, withoutManaged]
    split
    case isTrue => rfl
    case isFalse hne =>
      rw [Option.bind_some, withoutManaged, erase_of_lookup_none (Finmap.lookup_erase ..), if_neg hne]
  · rfl

theorem rootModelCatalogJson_of_lookup {edited : Document}
    (h : edited.lookup "model_catalog_json" = (rootModelCatalogJson current).map Item.ofStr) :
    rootModelCatalogJson edited = rootModelCatalogJson current := rootString_of_lookup h

/-- The shape of an edited document, where the edit puts strings and leaves tables. -/
theorem shape_of_edit (h : AccountDocument document current) {edited : Document}
    (hprovider : ∃ provider : Option String, edited.lookup "model_provider" = provider.map Item.ofStr)
    (hproviders : edited.lookup "model_providers" = (current.lookup "model_providers").bind withoutManaged)
    (heffort : edited.lookup "model_reasoning_effort" = current.lookup "model_reasoning_effort") :
    validateConfigShape edited = .ok () := by
  have hshape := validateConfigShape_eq_ok.mp h.shape
  refine validateConfigShape_eq_ok.mpr ⟨fun item hitem => ?_, fun item hitem => ?_, fun item hitem => ?_⟩
  · obtain ⟨provider, hprovider⟩ := hprovider
    rw [hprovider] at hitem
    obtain ⟨s, -, rfl⟩ := Option.map_eq_some_iff.mp hitem
    exact ⟨s, rfl⟩
  · rw [hproviders] at hitem
    obtain ⟨before, hbefore, hitem⟩ := Option.bind_eq_some_iff.mp hitem
    obtain ⟨entries, rfl⟩ := hshape.2.1 before hbefore
    rw [withoutManaged] at hitem
    split at hitem
    case isTrue => cases hitem
    case isFalse => exact ⟨_, (Option.some.inj hitem).symm⟩
  · exact hshape.2.2 item (heffort ▸ hitem)

theorem AccountDocument.attach (h : AccountDocument document current) :
    AccountDocument document (attachAccountConfig current) where
  shape := shape_of_edit h ⟨none, by rw [lookup_attachAccountConfig, if_pos (.inr rfl)]; rfl⟩
    (by rw [lookup_attachAccountConfig, if_neg (by decide), if_neg (by decide), if_pos rfl])
    (by rw [lookup_attachAccountConfig, if_neg (by decide), if_neg (by decide), if_neg (by decide)])
  modelCatalog := by
    rw [← h.modelCatalog]
    exact rootModelCatalogJson_of_lookup (by
      rw [lookup_attachAccountConfig, if_neg (by decide), if_pos rfl])
  modelProviders := by
    rw [lookup_attachAccountConfig, if_neg (by decide), if_neg (by decide), if_pos rfl]
    exact bind_withoutManaged_kept h
  baseUrl := .inr (.inr (by rw [lookup_attachAccountConfig, if_pos (.inl rfl)]))
  others k hprovider hproviders hcatalog hurl := by
    rw [lookup_attachAccountConfig, if_neg (not_or.mpr ⟨hurl, hprovider⟩), if_neg hcatalog,
      if_neg hproviders]
    exact h.others k hprovider hproviders hcatalog hurl

theorem AccountDocument.restore (h : AccountDocument document current) {backup : AccountProfileBackup}
    (hurl : backup.previousOpenaiBaseUrl = rootOpenaiBaseUrl document) :
    AccountDocument document (restoreAccountConfig current backup) where
  shape := shape_of_edit h ⟨backup.previousModelProvider, by
      rw [lookup_restoreAccountConfig, if_neg (by decide), if_neg (by decide), if_pos rfl]⟩
    (by rw [lookup_restoreAccountConfig, if_neg (by decide), if_neg (by decide), if_neg (by decide),
      if_pos rfl])
    (by rw [lookup_restoreAccountConfig, if_neg (by decide), if_neg (by decide), if_neg (by decide),
      if_neg (by decide)])
  modelCatalog := by
    rw [← h.modelCatalog]
    exact rootModelCatalogJson_of_lookup (by
      rw [lookup_restoreAccountConfig, if_neg (by decide), if_pos rfl])
  modelProviders := by
    rw [lookup_restoreAccountConfig, if_neg (by decide), if_neg (by decide), if_neg (by decide), if_pos rfl]
    exact bind_withoutManaged_kept h
  baseUrl := by
    rw [lookup_restoreAccountConfig, if_pos rfl, hurl]
    cases hstring : rootOpenaiBaseUrl document with
    | none =>
      have hbaseUrl := h.baseUrl
      rwa [hstring] at hbaseUrl
    | some baseUrl => exact .inr (.inl rfl)
  others k hprovider hproviders hcatalog hurl := by
    rw [lookup_restoreAccountConfig, if_neg hurl, if_neg hcatalog, if_neg hprovider, if_neg hproviders]
    exact h.others k hprovider hproviders hcatalog hurl

/-- The base URL of OpenAI comes back: it is a string, or it is still there. -/
def KeepsBaseUrl (document current : Document) : Prop :=
  ∀ item, document.lookup "openai_base_url" = some item →
    (∃ s, item = .ofStr s) ∨ current.lookup "openai_base_url" = some item

theorem restoreAccountConfig_eq_iff (hattachable : Attachable document) (h : AccountDocument document current)
    {backup : AccountProfileBackup} (hprovider : backup.previousModelProvider = rootModelProvider document)
    (hurl : backup.previousOpenaiBaseUrl = rootOpenaiBaseUrl document) :
    restoreAccountConfig current backup = document ↔ Kept document ∧ KeepsBaseUrl document current := by
  -- Away from the base URL the restored document is the settled one.
  have hsettle (k : String) (hk : k ≠ "openai_base_url") :
      (restoreAccountConfig current backup).lookup k = (settle document).lookup k := by
    rw [lookup_restoreAccountConfig, lookup_settle hattachable, if_neg hk, h.modelCatalog, hprovider,
      h.modelProviders]
    split_ifs with hcatalog hprovider hproviders hproviders
    · rfl
    · exact absurd (hprovider.symm.trans hproviders) (by decide)
    · rw [hprovider]
      exact (lookup_eq_map_rootString hattachable.modelProvider).symm
    · rfl
    · exact h.others k ‹_› ‹_› ‹_› hk
  have hsettled : (settle document).lookup "openai_base_url" = document.lookup "openai_base_url" := by
    rw [lookup_settle hattachable, if_neg (by decide), if_neg (by decide)]
  have hbase : (restoreAccountConfig current backup).lookup "openai_base_url" =
      document.lookup "openai_base_url" ↔ KeepsBaseUrl document current := by
    rw [lookup_restoreAccountConfig, if_pos rfl, hurl, KeepsBaseUrl, rootOpenaiBaseUrl, rootString]
    have hbaseUrl := h.baseUrl
    rw [rootOpenaiBaseUrl, rootString] at hbaseUrl
    cases hitem : document.lookup "openai_base_url" with
    | none =>
      rw [hitem] at hbaseUrl
      refine iff_of_true ?_ (by rintro _ ⟨⟩)
      rcases hbaseUrl with h | h | h <;> rw [h] <;> rfl
    | some item =>
      rw [Option.bind_some]
      cases hstring : item.asStr with
      | some s =>
        obtain rfl := item_of_asStr hstring
        exact iff_of_true rfl fun item' heq => .inl ⟨s, (Option.some.inj heq).symm⟩
      | none =>
        rw [Option.map_none, Option.none_or]
        constructor
        · intro hcurrent item' heq
          exact .inr (hcurrent.trans heq)
        · intro hkeeps
          refine (hkeeps item rfl).resolve_left ?_
          rintro ⟨s, rfl⟩
          cases hstring
  rw [← settle_eq_iff hattachable, ← hbase]
  constructor
  · intro heq
    refine ⟨Finmap.ext_lookup fun k => ?_, by rw [heq]⟩
    by_cases hk : k = "openai_base_url"
    · rw [hk, hsettled]
    · rw [← hsettle k hk, heq]
  · rintro ⟨hsame, hurl⟩
    refine Finmap.ext_lookup fun k => ?_
    by_cases hk : k = "openai_base_url"
    · rw [hk, hurl]
    · rw [hsettle k hk, hsame]

end

/-! ## Bound profiles -/

/-- What the account backup says of the profile from before the attach. -/
structure AccountRecords (env : Env) (p : Disk) (document : Document) (b : AccountProfileBackup) : Prop where
  version : b.version = 1
  profileDir : b.profileDir = env.profileDir
  modelProvider : b.previousModelProvider = rootModelProvider document
  baseUrl : b.previousOpenaiBaseUrl = rootOpenaiBaseUrl document
  secretRef : b.previousAuthSecretRef =
    (previousAuthText (p.files .auth)).map fun _ => accountBackupSecretRef env
  accountId : trim b.managedAccountId ≠ ""
  accessHash : isHash b.managedAccessHash = true

/-- The disk `d` holds an account binding, with the backup `b`, of the profile that was `p` before. -/
structure AccountBound (env : Env) (p : Disk) (document : Document) (b : AccountProfileBackup) (d : Disk) :
    Prop where
  config_before : readConfig env (p.files .config) = .ok document
  attachable : Attachable document
  auth_before : Readable (p.files .auth)
  records : AccountRecords env p document b
  backup : d.files .accountBackup = some (.text (env.writeAccountBackup b))
  config : ∃ current, readConfig env (d.files .config) = .ok current ∧ AccountDocument document current
  auth : Readable (d.files .auth)
  secret : (previousAuthText (p.files .auth)).isSome →
    d.secrets (accountBackupSecretRef env) = previousAuthText (p.files .auth)

section
variable {env : Env} {p d : Disk} {document current : Document} {b : AccountProfileBackup}

theorem parseAccountBackupSnapshot_of_records (h : env.Lawful) (hdir : trim env.profileDir ≠ "")
    (hr : AccountRecords env p document b) :
    parseAccountBackupSnapshot env (some (.text (env.writeAccountBackup b))) = .ok (some b) := by
  rw [parseAccountBackupSnapshot, snapshotText]
  dsimp only
  rw [parseAccountBackup, h.read_writeAccount]
  dsimp only
  rw [if_neg]
  · rfl
  · simp [hr.version, hr.profileDir, hr.accountId, hr.accessHash, hdir]

theorem accountAuthMatches_of_readable (env : Env) {content : Option Content} (h : Readable content)
    (hash : String) :
    ∃ managed, accountAuthMatchesSnapshot env content hash = .ok managed := by
  obtain ⟨text, htext, -⟩ := snapshotText_of_readable env h .auth
  exact ⟨_, by rw [accountAuthMatchesSnapshot, snapshotMatches, htext]⟩

theorem AccountBound.bind_secret (hb : AccountBound env p document b d) :
    b.previousAuthSecretRef.bind d.secrets = previousAuthText (p.files .auth) := by
  have hsecret := hb.secret
  rw [hb.records.secretRef]
  cases hprevious : previousAuthText (p.files .auth) with
  | none => rfl
  | some text =>
    rw [hprevious] at hsecret
    exact hsecret rfl

theorem readConfig_eq_ok {content : Option Content} (hread : readConfig env content = .ok current) :
    ∃ text, snapshotText env .config content = .ok text ∧ parseConfig env (text.getD "") = .ok current := by
  rw [readConfig] at hread
  split at hread
  case h_1 => cases hread
  case h_2 text htext => exact ⟨text, htext, hread⟩

/-- What an attach finds in a profile that is bound to an account. -/
theorem inspectAccountAttach_of_bound (h : env.Lawful) (hdir : trim env.profileDir ≠ "")
    (hb : AccountBound env p document b d) (hcurrent : readConfig env (d.files .config) = .ok current)
    (hdocument : AccountDocument document current) {managed : Bool}
    (hmanaged : accountAuthMatchesSnapshot env (d.files .auth) b.managedAccessHash = .ok managed) :
    inspectAccountAttach env d =
      if accountManagedConfigMatches current && managed then .ok ⟨current, some b⟩
      else .error profileRestoreBlocked := by
  obtain ⟨config, hconfig, hparse⟩ := readConfig_eq_ok hcurrent
  obtain ⟨auth, hauth, -⟩ := snapshotText_of_readable env hb.auth .auth
  rw [inspectAccountAttach, hb.backup, parseAccountBackupSnapshot_of_records h hdir hb.records]
  simp only [bind, Except.bind, pure, Except.pure, hconfig, hauth, hparse, hdocument.shape, hmanaged,
    hb.records.profileDir]
  cases accountManagedConfigMatches current <;> cases managed <;> simp

/-- What a restore finds there. -/
theorem inspectAccountRestore_of_bound (h : env.Lawful) (hdir : trim env.profileDir ≠ "")
    (hb : AccountBound env p document b d) (hcurrent : readConfig env (d.files .config) = .ok current)
    {managed : Bool}
    (hmanaged : accountAuthMatchesSnapshot env (d.files .auth) b.managedAccessHash = .ok managed) :
    inspectAccountRestore env d =
      if accountManagedConfigMatches current && managed then
        .ok (some ⟨b, current, previousAuthText (p.files .auth)⟩)
      else .error profileRestoreBlocked := by
  have hsecret := hb.bind_secret
  rw [inspectAccountRestore, hb.backup, parseAccountBackupSnapshot_of_records h hdir hb.records]
  simp only [bind, Except.bind, pure, Except.pure, hcurrent, hmanaged, hb.records.profileDir]
  cases href : b.previousAuthSecretRef with
  | none =>
    rw [href] at hsecret
    rw [← hsecret]
    cases accountManagedConfigMatches current <;> cases managed <;> simp
  | some secretRef =>
    rw [href, Option.bind_some] at hsecret
    have hsome : (previousAuthText (p.files .auth)).isSome := by
      have href' := hb.records.secretRef
      rw [href] at href'
      cases hprevious : previousAuthText (p.files .auth) with
      | none => rw [hprevious] at href'; exact nomatch href'
      | some text => rfl
    obtain ⟨text, htext⟩ := Option.isSome_iff_exists.mp hsome
    rw [htext] at hsecret ⊢
    cases accountManagedConfigMatches current <;> cases managed <;> simp [hsecret]

namespace AccountBound

theorem set_config (hb : AccountBound env p document b d) {text : String}
    (hread : env.parseToml text = .ok current) (hcurrent : AccountDocument document current) :
    AccountBound env p document b (d.set .config (some (.text text))) where
  config_before := hb.config_before
  attachable := hb.attachable
  auth_before := hb.auth_before
  records := hb.records
  backup := by simp [hb.backup]
  config := by
    refine ⟨current, ?_, hcurrent⟩
    rw [Disk.files_set, if_pos rfl]
    show parseConfig env text = _
    rw [parseConfig, hread]
  auth := by simpa using hb.auth
  secret := by simpa using hb.secret

theorem set_auth (hb : AccountBound env p document b d) {content : Option Content}
    (hcontent : Readable content) : AccountBound env p document b (d.set .auth content) where
  config_before := hb.config_before
  attachable := hb.attachable
  auth_before := hb.auth_before
  records := hb.records
  backup := by simp [hb.backup]
  config := by simpa using hb.config
  auth := by simpa using hcontent
  secret := by simpa using hb.secret

/-- Another account, with the same record of the profile from before. -/
theorem set_backup (hb : AccountBound env p document b d) (b' : AccountProfileBackup)
    (hrecords : AccountRecords env p document b') :
    AccountBound env p document b' (d.set .accountBackup (some (.text (env.writeAccountBackup b')))) where
  config_before := hb.config_before
  attachable := hb.attachable
  auth_before := hb.auth_before
  records := hrecords
  backup := by simp
  config := by simpa using hb.config
  auth := by simpa using hb.auth
  secret := by simpa using hb.secret

end AccountBound

theorem readable_map_text (text : Option String) : Readable (text.map .text) := by
  intro bytes
  cases text <;> exact nofun

/-! ## Attach -/

section
variable {w : World Disk} {A : Outcome → Prop} {attach account : AccountAttach}

/-- The backup that an attach to an account writes. -/
def attachedAccountBackup (env : Env) (account : AccountAttach) (backup : AccountProfileBackup) :
    AccountProfileBackup :=
  { backup with
    managedAccountId := account.accountId
    managedAccessHash := keyHash env account.tokens.accessToken }

variable {found : AccountInspection}

/-- The writes of an attach, once the backup is there, go through bound states only. -/
theorem commitAccountAttach_meets (h : env.Lawful) {disk : Disk}
    {backup : AccountProfileBackup} (hfiles : ∀ file, w.state.files file = disk.files file)
    (hdocument : AccountDocument document found.document)
    (hb : AccountBound env p document (attachedAccountBackup env account backup)
      (w.state.set .accountBackup (some (.text (env.writeAccountBackup
        (attachedAccountBackup env account backup))))))
    (ho : Within A w.outcomes) (hA : ¬A .failed) :
    Meets (commitAccountAttach env account disk found backup w)
      (fun _ w' => AccountBound env p document (attachedAccountBackup env account backup) w'.state)
      (fun _ _ => False)
      (fun w' => A .crashed ∧
        (w'.state = w.state ∨ AccountBound env p document (attachedAccountBackup env account backup) w'.state)) := by
  have hread := h.parse_print (Content.textOf (disk.files .config)) (attachAccountConfig found.document)
  rw [commitAccountAttach, meets_bind, meets_orRollback]
  refine meets_replaceIfUnchanged (hfiles _) ho (fun o ho => ?_) (fun hf => absurd hf hA)
    fun hc _ _ => ⟨hc, .inl rfl⟩
  rw [meets_bind, meets_orRollback]
  refine meets_replaceIfUnchanged (by simp [hfiles]) ho (fun o ho => ?_) (fun hf => absurd hf hA)
    fun hc _ _ => ⟨hc, .inr hb⟩
  have hconfig := hb.set_config hread hdocument.attach
  rw [meets_bind, meets_orRollback]
  exact meets_replaceIfUnchanged (by simp [hfiles]) ho
    (fun _ _ => hconfig.set_auth (readable_map_text (some _))) (fun hf => absurd hf hA)
    fun hc _ _ => ⟨hc, .inr hconfig⟩

theorem accountId_of_normalize (h : attach.normalize = .ok account) : trim account.accountId ≠ "" := by
  rw [AccountAttach.normalize] at h
  split at h
  case isTrue => exact nomatch h
  case isFalse hvalid =>
    obtain rfl := (Except.ok.inj h).symm
    rw [trim_trim]
    exact fun hblank => hvalid (.inl hblank)

/-- What an attach finds in a profile that is not bound to an account. -/
structure FoundUnattached (env : Env) (p : Disk) (found : AccountInspection) : Prop where
  config : readConfig env (p.files .config) = .ok found.document
  attachable : Attachable found.document
  auth : Readable (p.files .auth)
  existingBackup : found.existingBackup = none

theorem inspectAccountAttach_unattached (hp : p.files .accountBackup = none)
    (h : inspectAccountAttach env p = .ok found) : FoundUnattached env p found := by
  rw [inspectAccountAttach, hp] at h
  obtain ⟨config, hconfig, h⟩ := bind_eq_ok.mp h
  obtain ⟨auth, hauth, h⟩ := bind_eq_ok.mp h
  obtain ⟨document, hdocument, h⟩ := bind_eq_ok.mp h
  obtain ⟨_, hshape, h⟩ := bind_eq_ok.mp h
  obtain ⟨existing, hexisting, h⟩ := bind_eq_ok.mp h
  obtain rfl : existing = none := (Except.ok.inj hexisting).symm
  dsimp only at h
  split at h
  case isTrue => exact nomatch h
  case isFalse hprovider =>
    obtain rfl := (Except.ok.inj h).symm
    refine ⟨?_, attachable_of hshape (by simpa using hprovider), readable_of_snapshotText hauth, rfl⟩
    rw [readConfig, hconfig]
    exact hdocument

/-- The backup of a first attach to an account, before the account is written into it. -/
def firstAccountBackup (env : Env) (p : Disk) (document : Document) : AccountProfileBackup where
  version := 1
  profileDir := env.profileDir
  previousModelProvider := rootModelProvider document
  previousOpenaiBaseUrl := rootOpenaiBaseUrl document
  previousAuthSecretRef := (previousAuthText (p.files .auth)).map fun _ => accountBackupSecretRef env
  managedAccountId := ""
  managedAccessHash := ""

/-- The disk once the previous authentication is in its secret. -/
def keptAccountDisk (env : Env) (p : Disk) : Disk :=
  match previousAuthText (p.files .auth) with
  | some text => p.setSecret (accountBackupSecretRef env) (some text)
  | none => p

theorem files_keptAccountDisk : (keptAccountDisk env p).files = p.files := by
  rw [keptAccountDisk]
  split <;> rfl

theorem keepPreviousAccountAuth_meets (hfound : FoundUnattached env p found)
    (hw : w.state = p) (ho : Within A w.outcomes) (hA : ¬A .failed) :
    Meets (keepPreviousAccountAuth env p found (previousAccountBackup env found) w)
      (fun backup w' => backup = firstAccountBackup env p found.document ∧
        w'.state = keptAccountDisk env p ∧ Within A w'.outcomes)
      (fun _ _ => False) (fun w' => A .crashed ∧ w'.state = p) := by
  rw [keepPreviousAccountAuth, previousAccountBackup, hfound.existingBackup, firstAccountBackup, keptAccountDisk]
  cases previousAuthText (p.files .auth) with
  | none => exact ⟨by simp, hw, ho⟩
  | some text =>
    dsimp only
    rw [meets_bind]
    refine meets_saveSecret ho (fun o ho => ⟨by simp, ?_, ho⟩) (fun hf => absurd hf hA)
      fun hc _ _ => ⟨hc, hw⟩
    rw [hw]

/-- An attach to an account, of a profile that has none. -/
theorem attachAccount_meets (attach : AccountAttach) (h : env.Lawful) (hp : p.files .accountBackup = none) (hw : w.state = p)
    (ho : Within A w.outcomes) (hA : ¬A .failed) :
    Meets (attachAccountLocked env attach w)
      (fun _ w' => ∃ document b, AccountBound env p document b w'.state)
      (fun _ w' => w'.state = p)
      (fun w' => A .crashed ∧
        (w'.state.files = p.files ∨ ∃ document b, AccountBound env p document b w'.state)) := by
  rw [attachAccountLocked, meets_bind]
  cases hnormalize : attach.normalize with
  | error e => exact hw
  | ok account =>
    rw [meets_ofExcept_ok, meets_bind, meets_get, hw, meets_bind]
    cases hinspect : inspectAccountAttach env p with
    | error e => exact hw
    | ok found =>
      have hfound := inspectAccountAttach_unattached hp hinspect
      rw [meets_ofExcept_ok]
      have hkeep := keepPreviousAccountAuth_meets hfound hw ho hA
      refine (hkeep.mono (fun _ _ hQ => hQ) (fun _ _ hE => hE.elim)
        fun w' hC => ⟨hC.1, .inl (by rw [hC.2])⟩).bind ?_
      rintro _ w₁ ⟨rfl, hw₁, ho₁⟩
      have hb : AccountBound env p found.document
          (attachedAccountBackup env account (firstAccountBackup env p found.document))
          (w₁.state.set .accountBackup (some (.text (env.writeAccountBackup
            (attachedAccountBackup env account (firstAccountBackup env p found.document)))))) := by
        refine ⟨hfound.config, hfound.attachable, hfound.auth, ⟨rfl, rfl, rfl, rfl, rfl,
          accountId_of_normalize hnormalize, isHash_sha256Hex h _⟩, by simp, ?_, ?_, fun hsome => ?_⟩
        · simp only [Disk.files_set, hw₁, files_keptAccountDisk]
          exact ⟨_, hfound.config, accountDocument_self hfound.attachable⟩
        · simpa [hw₁, files_keptAccountDisk] using hfound.auth
        · obtain ⟨text, htext⟩ := Option.isSome_iff_exists.mp hsome
          simp [hw₁, keptAccountDisk, htext]
      refine (commitAccountAttach_meets h (fun file => by rw [hw₁, files_keptAccountDisk])
        (accountDocument_self hfound.attachable) hb ho₁ hA).mono (fun _ _ hQ => ⟨_, _, hQ⟩)
        (fun _ _ hE => hE.elim) fun w' hC => ⟨hC.1, hC.2.imp (fun hsame => ?_) fun hb => ⟨_, _, hb⟩⟩
      rw [hsame, hw₁, files_keptAccountDisk]

/-- An attach to an account, of a profile that is bound to one already. -/
theorem reattachAccount_meets (attach : AccountAttach) (h : env.Lawful) (hdir : trim env.profileDir ≠ "")
    (hb : AccountBound env p document b w.state) (ho : Within A w.outcomes) (hA : ¬A .failed) :
    Meets (attachAccountLocked env attach w)
      (fun _ w' => ∃ b', AccountBound env p document b' w'.state)
      (fun _ w' => ∃ b', AccountBound env p document b' w'.state)
      (fun w' => A .crashed ∧ ∃ b', AccountBound env p document b' w'.state) := by
  have ⟨current, hcurrent, hdocument⟩ := hb.config
  have ⟨managed, hmanaged⟩ := accountAuthMatches_of_readable env hb.auth b.managedAccessHash
  rw [attachAccountLocked, meets_bind]
  cases hnormalize : attach.normalize with
  | error e => exact ⟨b, hb⟩
  | ok account =>
    rw [meets_ofExcept_ok, meets_bind, meets_get, meets_bind,
      inspectAccountAttach_of_bound h hdir hb hcurrent hdocument hmanaged]
    split
    case isFalse => exact ⟨b, hb⟩
    case isTrue =>
      -- The record of the profile from before stays as it is.
      have hprevious : previousAccountBackup env ⟨current, some b⟩ = b := by
        have hurl : b.previousOpenaiBaseUrl.or (rootOpenaiBaseUrl current) = b.previousOpenaiBaseUrl := by
          rw [hb.records.baseUrl]
          cases hstring : rootOpenaiBaseUrl document with
          | some baseUrl => rfl
          | none =>
            rw [Option.none_or]
            have hbaseUrl := hdocument.baseUrl
            rw [rootOpenaiBaseUrl, rootString] at hstring ⊢
            rw [rootOpenaiBaseUrl, rootString, hstring] at hbaseUrl
            rcases hbaseUrl with hbaseUrl | hbaseUrl | hbaseUrl <;> rw [hbaseUrl]
            · exact hstring
            · rfl
            · rfl
        rw [previousAccountBackup]
        simp only [Option.getD_some, hurl]
      have hr := hb.records
      have hb' := hb.set_backup (attachedAccountBackup env account b) ⟨hr.version, hr.profileDir,
        hr.modelProvider, hr.baseUrl, hr.secretRef, accountId_of_normalize hnormalize, isHash_sha256Hex h _⟩
      rw [meets_ofExcept_ok, meets_bind, keepPreviousAccountAuth, hprevious, meets_pure]
      exact (commitAccountAttach_meets h (fun _ => rfl) hdocument hb' ho hA).mono (fun _ _ hQ => ⟨_, hQ⟩)
        (fun _ _ hE => hE.elim) fun w' hC => ⟨hC.1, hC.2.elim (fun hsame => ⟨b, hsame ▸ hb⟩) fun hb => ⟨_, hb⟩⟩

end

/-! ## Restore -/

/-- A profile whose files have been restored, without its backup. -/
structure AccountReturned (env : Env) (p : Disk) (document current : Document) (b : AccountProfileBackup)
    (d : Disk) : Prop where
  config_before : readConfig env (p.files .config) = .ok document
  attachable : Attachable document
  records : AccountRecords env p document b
  kept : AccountDocument document current
  backup : d.files .accountBackup = none
  config : ∃ text, d.files .config = some (.text text) ∧
    env.parseToml text = .ok (restoreAccountConfig current b)
  auth : d.files .auth = (previousAuthText (p.files .auth)).map .text

section
variable {w : World Disk} {A : Outcome → Prop}

theorem commitAccountRestore_meets (h : env.Lawful) (hb : AccountBound env p document b w.state)
    (hdocument : AccountDocument document current) (ho : Within A w.outcomes) (hA : ¬A .failed) :
    Meets (commitAccountRestore env w.state ⟨b, current, previousAuthText (p.files .auth)⟩ w)
      (fun _ w' => AccountReturned env p document current b w'.state)
      (fun _ _ => False)
      (fun w' => A .crashed ∧ (AccountBound env p document b w'.state ∨
        AccountReturned env p document current b w'.state)) := by
  have hread := h.parse_print (Content.textOf (w.state.files .config)) (restoreAccountConfig current b)
  have hconfig := hb.set_config hread (hdocument.restore hb.records.baseUrl)
  rw [commitAccountRestore, meets_bind]
  refine meets_replaceIfUnchanged rfl ho (fun o ho => ?_) (fun hf => absurd hf hA) fun hc _ _ => ⟨hc, .inl hb⟩
  rw [meets_bind, meets_orRollback]
  refine meets_replaceWithSnapshot (by simp) ho _ (fun o ho => ?_) (fun hf => absurd hf hA)
    fun hc _ _ => ⟨hc, .inl hconfig⟩
  have hauth := hconfig.set_auth (readable_map_text (previousAuthText (p.files .auth)))
  rw [meets_bind, meets_orRollback]
  refine meets_removeIfUnchanged (by simp) ho (fun o ho => ?_) (fun hf => absurd hf hA)
    fun hc _ _ => ⟨hc, .inl hauth⟩
  dsimp only
  set disk := ((w.state.set .config (some (.text (env.printToml (Content.textOf (w.state.files .config))
    (restoreAccountConfig current b))))).set .auth ((previousAuthText (p.files .auth)).map .text)).set
    .accountBackup none with hdisk
  have hreturned {d : Disk} (hd : d.files = disk.files) : AccountReturned env p document current b d :=
    ⟨hb.config_before, hb.attachable, hb.records, hdocument, by simp [hd, hdisk],
      ⟨_, by simp [hd, hdisk], hread⟩, by simp [hd, hdisk]⟩
  rw [meets_orRollback]
  cases b.previousAuthSecretRef with
  | some secretRef =>
    exact meets_deleteSecret ho (fun _ _ => hreturned rfl) (fun hf => absurd hf hA)
      fun hc _ _ => ⟨hc, .inr (hreturned rfl)⟩
  | none => exact hreturned rfl

theorem restoreAccount_meets (h : env.Lawful) (hdir : trim env.profileDir ≠ "")
    (hb : AccountBound env p document b w.state) (hcurrent : readConfig env (w.state.files .config) = .ok current)
    (hdocument : AccountDocument document current) {managed : Bool}
    (hmanaged : accountAuthMatchesSnapshot env (w.state.files .auth) b.managedAccessHash = .ok managed)
    (ho : Within A w.outcomes) (hA : ¬A .failed) :
    Meets (restoreAccountLocked env w)
      (fun _ w' => (accountManagedConfigMatches current && managed) = true ∧
        AccountReturned env p document current b w'.state)
      (fun _ w' => (accountManagedConfigMatches current && managed) = false ∧ w'.state = w.state)
      (fun w' => A .crashed ∧ (AccountBound env p document b w'.state ∨
        AccountReturned env p document current b w'.state)) := by
  rw [restoreAccountLocked, meets_bind, meets_get, meets_bind,
    inspectAccountRestore_of_bound h hdir hb hcurrent hmanaged]
  split
  case isTrue hmatches =>
    rw [meets_ofExcept_ok]
    dsimp only
    rw [meets_bind]
    exact (commitAccountRestore_meets h hb hdocument ho hA).mono (fun _ _ hQ => ⟨hmatches, hQ⟩)
      (fun _ _ hE => hE.elim) fun _ hC => hC
  case isFalse hmatches => exact ⟨by simpa using hmatches, rfl⟩

theorem restoreAccountLocked_absent (hd : w.state.files .accountBackup = none) :
    restoreAccountLocked env w = (.ok none, w) := by
  show Op.bind (Op.ofExcept (inspectAccountRestore env w.state)) _ w = _
  rw [Op.bind, inspectAccountRestore, hd]
  rfl

end

end

/-! ## After a crash -/

/-- The disks that an account binding of the profile `p` can be left on: wherever an attach, an attach to
another account or a restore was cut short, any number of times. -/
inductive AccountInterrupted (env : Env) (p : Disk) : Disk → Prop
  | attach {attach : AccountAttach} {outcomes : List Outcome}
      {result : Result LocalPoolError ProfileBinding} {w : World Disk} : NoFailure outcomes →
      attachAccountLocked env attach ⟨p, outcomes⟩ = (result, w) → AccountInterrupted env p w.state
  | reattach {d : Disk} {attach : AccountAttach} {outcomes : List Outcome}
      {result : Result LocalPoolError ProfileBinding} {w : World Disk} : AccountInterrupted env p d →
      (d.files .accountBackup).isSome → NoFailure outcomes →
      attachAccountLocked env attach ⟨d, outcomes⟩ = (result, w) → AccountInterrupted env p w.state
  | restore {d : Disk} {outcomes : List Outcome} {w : World Disk} : AccountInterrupted env p d →
      NoFailure outcomes → restoreAccountLocked env ⟨d, outcomes⟩ = (.crash, w) →
      AccountInterrupted env p w.state

/-- The files of the profile are those of `p`, and it has no account backup. -/
def Untouched (p d : Disk) : Prop :=
  d.files .accountBackup = none ∧ d.files .config = p.files .config ∧ d.files .auth = p.files .auth

/-- What a crash can leave: no binding yet, a bound profile, or a profile that was given back. -/
inductive AccountHalfway (env : Env) (p d : Disk) : Prop
  | untouched : Untouched p d → AccountHalfway env p d
  | bound {document : Document} {b : AccountProfileBackup} : AccountBound env p document b d →
      AccountHalfway env p d
  | returned {document current : Document} {b : AccountProfileBackup} :
      AccountReturned env p document current b d → AccountHalfway env p d

/-- A later restore or attach succeeds, and a restore that does gives the profile back. -/
def AccountRecovers (env : Env) (attach : AccountAttach) (p d : Disk) : Prop :=
  ((∃ binding d', (restoreAccountLocked env).calm d = (.ok binding, d')) ∨
    ∃ binding d', (attachAccountLocked env attach).calm d = (.ok binding, d')) ∧
  ∀ binding d', (restoreAccountLocked env).calm d = (.ok binding, d') → AsBefore env p d'

/-- What a restore to an account needs to give the profile back. -/
structure AccountRestorable (p : Disk) (document current : Document) : Prop where
  config : (p.files .config).isSome
  kept : Kept document
  baseUrl : KeepsBaseUrl document current
  auth : p.files .auth = none ∨ (previousAuthText (p.files .auth)).isSome

/-- The condition for a later restore or attach, on what the crash has left: nothing has been written, or
the files are the managed ones of the backup, if there is one, and a restore keeps what was there. -/
def AccountRecoverable (env : Env) (p d : Disk) : Prop :=
  Untouched p d ∨ ∃ document current, readConfig env (p.files .config) = .ok document ∧
    readConfig env (d.files .config) = .ok current ∧
    (∀ b, d.files .accountBackup = some (.text (env.writeAccountBackup b)) →
      accountManagedConfigMatches current = true ∧
      accountAuthMatchesSnapshot env (d.files .auth) b.managedAccessHash = .ok true) ∧
    AccountRestorable p document current

section
variable {env : Env} {p d : Disk} {document current : Document} {b : AccountProfileBackup}

attribute [local irreducible] Meets in
theorem accountHalfway_of_interrupted (h : env.Lawful) (hdir : trim env.profileDir ≠ "")
    (hp : p.files .accountBackup = none) (hd : AccountInterrupted env p d) : AccountHalfway env p d := by
  have huntouched {d : Disk} (hfiles : d.files = p.files) : Untouched p d := by
    rw [Untouched, hfiles]
    exact ⟨hp, rfl, rfl⟩
  induction hd with
  | @attach attach outcomes result w ho hrun =>
    have hmeets := attachAccount_meets (w := ⟨p, outcomes⟩) attach h hp rfl ho (by simp)
    rw [hrun] at hmeets
    cases result with
    | ok =>
      obtain ⟨_, _, hb⟩ := meets_ok.mp hmeets
      exact .bound hb
    | error => exact .untouched (huntouched (congrArg Disk.files (meets_error.mp hmeets)))
    | crash =>
      obtain ⟨-, hsame | ⟨_, _, hb⟩⟩ := meets_crash.mp hmeets
      · exact .untouched (huntouched hsame)
      · exact .bound hb
  | @reattach d attach outcomes result w _ hsome ho hrun ih =>
    cases ih with
    | untouched huntouched =>
      rw [huntouched.1] at hsome
      exact nomatch hsome
    | returned hreturned =>
      rw [hreturned.backup] at hsome
      exact nomatch hsome
    | bound hb =>
      have hmeets := reattachAccount_meets (w := ⟨d, outcomes⟩) attach h hdir hb ho (by simp)
      rw [hrun] at hmeets
      cases result with
      | ok =>
        obtain ⟨_, hb'⟩ := meets_ok.mp hmeets
        exact .bound hb'
      | error =>
        obtain ⟨_, hb'⟩ := meets_error.mp hmeets
        exact .bound hb'
      | crash =>
        obtain ⟨-, _, hb'⟩ := meets_crash.mp hmeets
        exact .bound hb'
  | @restore d outcomes w _ ho hrun ih =>
    cases ih with
    | untouched huntouched =>
      exact nomatch hrun.symm.trans (restoreAccountLocked_absent (w := ⟨d, outcomes⟩) huntouched.1)
    | returned hreturned =>
      exact nomatch hrun.symm.trans (restoreAccountLocked_absent (w := ⟨d, outcomes⟩) hreturned.backup)
    | bound hb =>
      obtain ⟨current, hcurrent, hdocument⟩ := hb.config
      obtain ⟨managed, hmanaged⟩ := accountAuthMatches_of_readable env hb.auth _
      have hmeets := restoreAccount_meets (w := ⟨d, outcomes⟩) h hdir hb hcurrent hdocument hmanaged ho (by simp)
      rw [hrun] at hmeets
      obtain ⟨-, hb | hreturned⟩ := meets_crash.mp hmeets
      · exact .bound hb
      · exact .returned hreturned

/-- Whether a profile whose files have been restored is as it was before. -/
theorem AccountReturned.asBefore_iff (hd : AccountReturned env p document current b d) :
    AsBefore env p d ↔ AccountRestorable p document current := by
  obtain ⟨text, hconfig, hread⟩ := hd.config
  have hcurrent : readConfig env (d.files .config) = .ok (restoreAccountConfig current b) := by
    rw [hconfig]
    show parseConfig env text = _
    rw [parseConfig, hread]
  have hdocument := restoreAccountConfig_eq_iff hd.attachable hd.kept hd.records.modelProvider hd.records.baseUrl
  have hauth : d.files .auth = p.files .auth ↔
      p.files .auth = none ∨ (previousAuthText (p.files .auth)).isSome := by
    rw [hd.auth]
    cases hprevious : previousAuthText (p.files .auth) with
    | none => simp [eq_comm]
    | some text => simp [(previousAuthText_eq_some hprevious).1]
  constructor
  · rintro ⟨hsame, hexists, hauth'⟩
    rw [hcurrent, hd.config_before] at hsame
    obtain ⟨hkept, hurl⟩ := hdocument.mp (Except.ok.inj hsame)
    exact ⟨by rw [← hexists, hconfig]; rfl, hkept, hurl, hauth.mp hauth'⟩
  · rintro ⟨hexists, hkept, hurl, hauth'⟩
    refine ⟨?_, by rw [hexists, hconfig]; rfl, hauth.mpr hauth'⟩
    rw [hcurrent, hd.config_before, hdocument.mpr ⟨hkept, hurl⟩]

/-- A base URL that a restore kept was there before the restore. -/
theorem AccountReturned.keepsBaseUrl (hd : AccountReturned env p document current b d)
    (hurl : KeepsBaseUrl document (restoreAccountConfig current b)) : KeepsBaseUrl document current := by
  intro item hitem
  rcases hurl item hitem with hstring | hkept
  · exact .inl hstring
  · rw [lookup_restoreAccountConfig, if_pos rfl, hd.records.baseUrl, rootOpenaiBaseUrl, rootString, hitem,
      Option.bind_some] at hkept
    cases hstring : item.asStr with
    | some s => exact .inl ⟨s, item_of_asStr hstring⟩
    | none =>
      rw [hstring] at hkept
      exact .inr hkept

theorem accountRecovers_of_absent (habsent : d.files .accountBackup = none) (attach : AccountAttach) :
    AccountRecovers env attach p d ↔ AsBefore env p d := by
  have hrun : (restoreAccountLocked env).calm d = (.ok none, d) := by
    rw [Op.calm, restoreAccountLocked_absent habsent]
  constructor
  · rintro ⟨-, hbefore⟩
    exact hbefore none d hrun
  · intro hbefore
    refine ⟨.inl ⟨none, d, hrun⟩, fun binding d' hrun' => ?_⟩
    obtain rfl : d = d' := congrArg Prod.snd (hrun.symm.trans hrun')
    exact hbefore

/-- A bound profile: an attach passes the same checks as a restore. -/
theorem accountRecovers_of_bound (h : env.Lawful) (hdir : trim env.profileDir ≠ "")
    (hb : AccountBound env p document b d) (hcurrent : readConfig env (d.files .config) = .ok current)
    (hdocument : AccountDocument document current) (attach : AccountAttach) :
    AccountRecovers env attach p d ↔
      (accountManagedConfigMatches current = true ∧
        accountAuthMatchesSnapshot env (d.files .auth) b.managedAccessHash = .ok true) ∧
      AccountRestorable p document current := by
  obtain ⟨managed, hmanaged⟩ := accountAuthMatches_of_readable env hb.auth b.managedAccessHash
  have hmatches : (accountManagedConfigMatches current && managed) = true ↔
      accountManagedConfigMatches current = true ∧
        accountAuthMatchesSnapshot env (d.files .auth) b.managedAccessHash = .ok true := by
    rw [hmanaged]
    simp
  have hrestore := (restoreAccount_meets (w := ⟨d, []⟩) (A := (· = .done)) h hdir hb hcurrent hdocument
    hmanaged (within_nil _) (by decide)).calm (fun w hC => nomatch hC.1)
  rw [← hmatches]
  constructor
  · rintro ⟨hsucceeds, hbefore⟩
    have hok : (accountManagedConfigMatches current && managed) = true := by
      by_contra hblocked
      rcases hsucceeds with ⟨binding, d', hrestored⟩ | ⟨binding, d', hattached⟩
      · rcases hrestore with ⟨_, w, -, hok, -⟩ | ⟨e, w, herror, -⟩
        · exact hblocked hok
        · exact nomatch hrestored.symm.trans herror
      · have hrun : Meets (attachAccountLocked env attach ⟨d, []⟩) (fun _ _ => False) (fun _ _ => True)
            (fun _ => False) := by
          rw [attachAccountLocked, meets_bind]
          cases attach.normalize with
          | error e => trivial
          | ok account =>
            rw [meets_ofExcept_ok, meets_bind, meets_get, meets_bind,
              inspectAccountAttach_of_bound h hdir hb hcurrent hdocument hmanaged, if_neg hblocked]
            trivial
        rcases hrun.calm (fun _ hC => hC) with ⟨_, _, -, hfalse⟩ | ⟨e, w, herror, -⟩
        · exact hfalse
        · exact nomatch hattached.symm.trans herror
    rcases hrestore with ⟨binding, w, hrestored, -, hreturned⟩ | ⟨e, w, -, hblocked, -⟩
    · exact ⟨hok, hreturned.asBefore_iff.mp (hbefore binding w.state hrestored)⟩
    · exact nomatch hok.symm.trans hblocked
  · rintro ⟨hok, hrestorable⟩
    rcases hrestore with ⟨binding, w, hrestored, -, hreturned⟩ | ⟨e, w, -, hblocked, -⟩
    · refine ⟨.inl ⟨binding, w.state, hrestored⟩, fun binding' d' hrestored' => ?_⟩
      obtain rfl : w.state = d' := congrArg Prod.snd (hrestored.symm.trans hrestored')
      exact hreturned.asBefore_iff.mpr hrestorable
    · exact nomatch hok.symm.trans hblocked

theorem accountRecovers_halfway_iff (h : env.Lawful) (hdir : trim env.profileDir ≠ "")
    (hd : AccountHalfway env p d) (attach : AccountAttach) :
    AccountRecovers env attach p d ↔ AccountRecoverable env p d := by
  have hsame (huntouched : Untouched p d) : AsBefore env p d := by
    obtain ⟨-, hconfig, hauth⟩ := huntouched
    exact ⟨by rw [hconfig], by rw [hconfig], hauth⟩
  cases hd with
  | untouched huntouched =>
    rw [accountRecovers_of_absent huntouched.1]
    exact iff_of_true (hsame huntouched) (.inl huntouched)
  | @bound document b hb =>
    obtain ⟨current, hcurrent, hdocument⟩ := hb.config
    rw [accountRecovers_of_bound h hdir hb hcurrent hdocument]
    constructor
    · rintro ⟨hmatches, hrestorable⟩
      refine .inr ⟨document, current, hb.config_before, hcurrent, fun b' hbackup => ?_, hrestorable⟩
      have hwritten : env.writeAccountBackup b' = env.writeAccountBackup b := by
        simpa using hbackup.symm.trans hb.backup
      obtain rfl : b' = b := Except.ok.inj
        ((h.read_writeAccount b').symm.trans (hwritten ▸ h.read_writeAccount b))
      exact hmatches
    · rintro (huntouched | ⟨document', current', hread, hread', hmatches, hrestorable⟩)
      · exact nomatch huntouched.1.symm.trans hb.backup
      · obtain rfl := Except.ok.inj (hread.symm.trans hb.config_before)
        obtain rfl := Except.ok.inj (hread'.symm.trans hcurrent)
        exact ⟨hmatches b hb.backup, hrestorable⟩
  | @returned document current b hreturned =>
    rw [accountRecovers_of_absent hreturned.backup]
    obtain ⟨text, hconfig, hread⟩ := hreturned.config
    have hcurrent : readConfig env (d.files .config) = .ok (restoreAccountConfig current b) := by
      rw [hconfig]
      show parseConfig env text = _
      rw [parseConfig, hread]
    constructor
    · intro hbefore
      obtain ⟨hexists, hkept, hurl, hauth⟩ := hreturned.asBefore_iff.mp hbefore
      refine .inr ⟨document, _, hreturned.config_before, hcurrent, fun b' hbackup => ?_, hexists, hkept, ?_, hauth⟩
      · exact nomatch hreturned.backup.symm.trans hbackup
      · have heq := (restoreAccountConfig_eq_iff hreturned.attachable hreturned.kept
          hreturned.records.modelProvider hreturned.records.baseUrl).mpr ⟨hkept, hurl⟩
        rw [heq]
        exact fun item hitem => .inr hitem
    · rintro (huntouched | ⟨document', current', hread, hread', -, hexists, hkept, hurl, hauth⟩)
      · exact hsame huntouched
      · obtain rfl := Except.ok.inj (hread.symm.trans hreturned.config_before)
        obtain rfl := Except.ok.inj (hread'.symm.trans hcurrent)
        exact hreturned.asBefore_iff.mpr ⟨hexists, hkept, hreturned.keepsBaseUrl hurl, hauth⟩

theorem accountRecovers_iff (h : env.Lawful) (hdir : trim env.profileDir ≠ "")
    (hp : p.files .accountBackup = none) (hd : AccountInterrupted env p d) (attach : AccountAttach) :
    AccountRecovers env attach p d ↔ AccountRecoverable env p d :=
  accountRecovers_halfway_iff h hdir (accountHalfway_of_interrupted h hdir hp hd) attach

def sampleAccountAttach : AccountAttach where
  accountId := "account"
  tokens := sampleTokens
  providerAccountId := "acct"

theorem interrupted_attachAccount (attach : AccountAttach) {outcomes : List Outcome}
    (ho : NoFailure outcomes) :
    AccountInterrupted env p (attachAccountLocked env attach ⟨p, outcomes⟩).2.state :=
  .attach ho (Prod.mk.eta (p := attachAccountLocked env attach ⟨p, outcomes⟩)).symm

theorem accountRecovers_sample :
    AccountRecovers sampleEnv sampleAccountAttach (sampleDisk (some (.text "")) (some (.text "\x7b\x7d")))
        (attachAccountLocked sampleEnv sampleAccountAttach
          ⟨sampleDisk (some (.text "")) (some (.text "\x7b\x7d")), [.done, .done, .crashed]⟩).2.state ↔
      AccountRecoverable sampleEnv (sampleDisk (some (.text "")) (some (.text "\x7b\x7d")))
        (attachAccountLocked sampleEnv sampleAccountAttach
          ⟨sampleDisk (some (.text "")) (some (.text "\x7b\x7d")), [.done, .done, .crashed]⟩).2.state :=
  accountRecovers_iff sampleEnv_lawful (by decide) rfl
    (interrupted_attachAccount sampleAccountAttach (by simp [Within])) sampleAccountAttach

/-- Once the backup is written and before the authentication is, neither a restore nor an attach goes
ahead. -/
theorem crash_blocks_account : ∃ d,
    AccountInterrupted sampleEnv (sampleDisk (some (.text "")) (some (.text "\x7b\x7d"))) d ∧
    ∀ attach, ¬AccountRecovers sampleEnv attach (sampleDisk (some (.text "")) (some (.text "\x7b\x7d"))) d := by
  have hd : AccountInterrupted sampleEnv (sampleDisk (some (.text "")) (some (.text "\x7b\x7d")))
      (attachAccountLocked sampleEnv sampleAccountAttach
        ⟨sampleDisk (some (.text "")) (some (.text "\x7b\x7d")), [.done, .done, .crashed]⟩).2.state :=
    interrupted_attachAccount sampleAccountAttach (by simp [Within])
  refine ⟨_, hd, fun attach hrecovers => ?_⟩
  have hhalfway := accountHalfway_of_interrupted sampleEnv_lawful (by decide) rfl hd
  rcases (accountRecovers_halfway_iff sampleEnv_lawful (by decide) hhalfway attach).mp hrecovers with
    huntouched | ⟨_, _, -, -, hmatches, -⟩
  · exact nomatch huntouched.1
  · have hmatches := (hmatches (attachedAccountBackup sampleEnv sampleAccountAttach
      (firstAccountBackup sampleEnv (sampleDisk (some (.text "")) (some (.text "\x7b\x7d"))) ∅)) rfl).2
    exact nomatch hmatches

end

end Zenith.Profiles
