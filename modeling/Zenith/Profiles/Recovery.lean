import Mathlib
import Zenith.Profiles.Bound

/-!
# Restoring a bound profile

`restore_meets`: a restore of a bound profile either gives up before its first write, or leaves the
profile returned, or stops in a state that is bound again. `attach_meets` and `refresh_meets` say the same
of the other operations: wherever they stop, the profile is not bound yet or bound.
-/

namespace Zenith.Profiles

open Zenith.Faults Zenith.Text

section
variable {env : Env} {p d : Disk} {document : Document} {b : ProfileBackup}

/-! ## Reading the backup -/

variable {backup : ProfileBackup}

theorem migrateLegacy_of_valid (hvalid : validManagedModelCatalog env backup (d.files .catalog) = true) :
    migrateLegacyManagedCatalogMetadata env d backup = none := by
  rw [migrateLegacyManagedCatalogMetadata]
  cases hcontent : d.files .catalog with
  | none => rfl
  | some content =>
    refine if_neg fun hlegacy => ?_
    simp only [Bool.and_eq_true, Option.isNone_iff_eq_none] at hlegacy
    have hpath := hlegacy.1.1.1.1
    rw [validManagedModelCatalog, hpath, hcontent] at hvalid
    simp at hvalid

theorem migrateMissing_of_valid (hvalid : validManagedModelCatalog env backup (d.files .catalog) = true)
    (hremove : backup.managedModelCatalogPendingRemove = false) :
    migrateMissingManagedCatalogForRestore env d backup = .ok none := by
  rw [migrateMissingManagedCatalogForRestore]
  refine if_pos ?_
  rw [validManagedModelCatalog] at hvalid
  cases hcontent : d.files .catalog with
  | some content => simp
  | none =>
    cases hpath : backup.managedModelCatalogPath with
    | none => simp
    | some path =>
      cases hhash : backup.managedModelCatalogHash with
      | none => simp
      | some hash =>
        cases hpending : backup.restorePending with
        | true => simp
        | false => simp [hcontent, hpath, hhash, hpending, hremove] at hvalid

/-- The error of a backup whose metadata is not valid. -/
def invalidMetadata : LocalPoolError :=
  ⟨.recoveryRequired, "ChatGPT local gateway profile backup has invalid metadata"⟩

variable {w : World Disk}

theorem localBackup_of_bound (h : env.Lawful) (hb : Bound env p document b w.state) :
    localBackup env w =
      (if trim b.managedBaseUrl = "" then .error invalidMetadata else .ok (some b), w) := by
  have hvalid : validMetadata env b (w.state.files .catalog) = decide (trim b.managedBaseUrl ≠ "") := by
    rw [validMetadata, hb.records.version, hb.records.isHash, hb.records.oauth, hb.catalog]
    simp
  have hparse := parseBackupSnapshot_writeBackup h b
  rw [← hb.backup] at hparse
  simp only [localBackup, bind, Op.bind, Op.get, hparse, Op.ofExcept, Op.pure, writeMigrated,
    migrateLegacy_of_valid hb.catalog, migrateMissing_of_valid hb.catalog hb.records.pendingRemove, hvalid, pure]
  by_cases hurl : trim b.managedBaseUrl = ""
  · simp only [hurl, ne_eq, not_true, decide_false, Bool.false_eq_true, if_false, if_true]
    rfl
  · simp only [hurl, ne_eq, not_false_eq_true, decide_true, if_true, if_false]
    rfl

theorem localBackup_of_absent (h : w.state.files .backup = none) :
    localBackup env w = (.ok none, w) := by
  simp only [localBackup, bind, Op.bind, Op.get, h, parseBackupSnapshot, snapshotText, Op.ofExcept, Op.pure, pure]

/-! ## Where an interrupted operation can stop -/

namespace Bound

/-- A bound profile whose files have changed within what the backup recognises is bound. -/
theorem replace (hb : Bound env p document b d) {b' : ProfileBackup} {d' : Disk}
    (hrecords : Records env p document b') (hbackup : d'.files .backup = some (.text (env.writeBackup b')))
    (hcatalog : validManagedModelCatalog env b' (d'.files .catalog) = true)
    (hconfig : ∃ current, readConfig env (d'.files .config) = .ok current ∧
      DocumentState env document b' current)
    (hauth : Readable (d'.files .auth))
    (hsecret : d'.secrets backupSecretRef = previousAuthText (p.files .auth) ∨
      d'.secrets backupSecretRef = none) : Bound env p document b' d' where
  config_before := hb.config_before
  attachable := hb.attachable
  auth_before := hb.auth_before
  records := hrecords
  backup := hbackup
  catalog := hcatalog
  config := hconfig
  auth := hauth
  secret := hsecret

theorem set_config (hb : Bound env p document b d) {text : String}
    (hread : env.parseToml text = .ok (settle document)) :
    Bound env p document b (d.set .config (some (.text text))) := by
  refine hb.replace hb.records (by simp [hb.backup]) (by simp [hb.catalog]) ⟨settle document, ?_, .restored⟩
    (by simpa using hb.auth) (by simpa using hb.secret)
  rw [Disk.files_set, if_pos rfl]
  show parseConfig env text = _
  rw [parseConfig, hread]

theorem set_auth (hb : Bound env p document b d) {content : Option Content} (hcontent : Readable content) :
    Bound env p document b (d.set .auth content) :=
  hb.replace hb.records (by simp [hb.backup]) (by simp [hb.catalog]) (by simpa using hb.config)
    (by simpa using hcontent) (by simpa using hb.secret)

theorem remove_catalog (hb : Bound env p document b d) (hpending : b.restorePending = true) :
    Bound env p document b (d.set .catalog none) := by
  refine hb.replace hb.records (by simp [hb.backup]) ?_ (by simpa using hb.config) (by simpa using hb.auth)
    (by simpa using hb.secret)
  have hvalid := hb.catalog
  rw [validManagedModelCatalog] at hvalid ⊢
  split at hvalid
  case isTrue => exact nomatch hvalid
  case isFalse hmetadata =>
    rw [if_neg hmetadata]
    cases hpath : b.managedModelCatalogPath with
    | none =>
      rw [hpath] at hvalid
      simpa using (Bool.and_eq_true_iff.mp hvalid).1
    | some path =>
      rw [hpath] at hvalid
      dsimp only at hvalid ⊢
      split at hvalid
      case isTrue => exact nomatch hvalid
      case isFalse hpath' =>
        rw [if_neg hpath', if_pos]
        simp [hpending]

theorem delete_secret (hb : Bound env p document b d) :
    Bound env p document b (d.setSecret backupSecretRef none) :=
  hb.replace hb.records (by simp [hb.backup]) (by simp [hb.catalog]) (by simpa using hb.config)
    (by simpa using hb.auth) (.inr (by simp))

/-- Only the marker of a restore changes. -/
theorem pend (hb : Bound env p document b d) :
    Bound env p document { b with restorePending := true }
      (d.set .backup (some (.text (env.writeBackup { b with restorePending := true })))) := by
  have hr := hb.records
  refine hb.replace ⟨hr.version, hr.modelProvider, hr.modelCatalog, hr.effort, hr.effortCleared, hr.authHash,
    hr.secretRef, hr.isHash, hr.baseUrl, hr.oauth, hr.catalogPath, hr.pendingRemove⟩ (by simp) ?_ ?_
    (by simpa using hb.auth) (by simpa using hb.secret)
  · rw [Disk.files_set, if_neg (by decide)]
    have hvalid := hb.catalog
    rw [validManagedModelCatalog] at hvalid ⊢
    split at hvalid
    case isTrue => exact nomatch hvalid
    case isFalse hmetadata =>
      rw [if_neg hmetadata]
      cases hpath : b.managedModelCatalogPath with
      | none => simpa [hpath] using hvalid
      | some path =>
        rw [hpath] at hvalid
        dsimp only at hvalid ⊢
        split at hvalid
        case isTrue => exact nomatch hvalid
        case isFalse hpath' =>
          rw [if_neg hpath']
          cases hcontent : d.files .catalog with
          | none => simp
          | some content => simpa [hcontent] using hvalid
  · obtain ⟨current, hcurrent, hstate⟩ := hb.config
    refine ⟨current, by simpa using hcurrent, ?_⟩
    cases hstate with
    | original => exact .original
    | restored => exact .restored
    | managed hkey hhash hws => exact .managed hkey hhash hws

/-- Without a reference to it there is no secret. -/
theorem secret_of_noRef (hb : Bound env p document b d) (h : b.previousAuthSecretRef = none) :
    d.secrets backupSecretRef = none := by
  have hprevious : previousAuthText (p.files .auth) = none := by
    have href := hb.records.secretRef
    rw [h] at href
    exact Option.map_eq_none_iff.mp href.symm
  rcases hb.secret with hsecret | hsecret
  · rw [hsecret, hprevious]
  · exact hsecret

theorem secretRef_eq (hb : Bound env p document b d) {secretRef : String}
    (h : b.previousAuthSecretRef = some secretRef) : secretRef = backupSecretRef := by
  rw [hb.records.secretRef] at h
  obtain ⟨_, -, rfl⟩ := Option.map_eq_some_iff.mp h
  rfl

end Bound

/-! ## The writes of a restore -/

section
variable {w : World Disk} {A : Outcome → Prop} {Q : Unit → World Disk → Prop}
  {E : LocalPoolError → World Disk → Prop} {C : World Disk → Prop} {file : File}
  {expected : Option Content}

theorem meets_replaceIfDifferent (hfile : w.state.files file = expected) (ho : Within A w.outcomes)
    {content : String}
    (hQ : ∀ outcomes, Within A outcomes → Q () ⟨w.state.set file (some (.text content)), outcomes⟩)
    (hE : A .failed → ∀ outcomes, Within A outcomes → E ⟨.io, env.ioError file⟩ ⟨w.state, outcomes⟩)
    (hC : A .crashed → ∀ outcomes, Within A outcomes → C ⟨w.state, outcomes⟩) :
    Meets (replaceIfDifferent env file expected content w) Q E C := by
  rw [replaceIfDifferent]
  split
  case isTrue hsame =>
    have hQ := hQ w.outcomes ho
    rwa [Disk.set_self (hfile.trans hsame)] at hQ
  case isFalse => exact meets_replaceIfUnchanged hfile ho hQ hE hC

theorem meets_replaceWithSnapshot (hfile : w.state.files file = expected) (ho : Within A w.outcomes)
    (content : Option String)
    (hQ : ∀ outcomes, Within A outcomes → Q () ⟨w.state.set file (content.map .text), outcomes⟩)
    (hE : A .failed → ∀ outcomes, Within A outcomes → E ⟨.io, env.ioError file⟩ ⟨w.state, outcomes⟩)
    (hC : A .crashed → ∀ outcomes, Within A outcomes → C ⟨w.state, outcomes⟩) :
    Meets (replaceWithSnapshot env file expected content w) Q E C := by
  cases content with
  | none => exact meets_removeIfUnchanged hfile ho hQ hE hC
  | some content => exact meets_replaceIfUnchanged hfile ho hQ hE hC

end

/-- The disk after a restore. -/
def restoredDisk (d : Disk) (config : String) (auth : Option Content) : Disk :=
  ((((d.set .config (some (.text config))).set .auth auth).set .catalog none).setSecret backupSecretRef
    none).set .backup none

section
variable {w : World Disk} {A : Outcome → Prop}

theorem restorePreviousAuth_meets (hb : Bound env p document b w.state) (ho : Within A w.outcomes)
    (found : RestoreInspection) :
    Meets (restorePreviousAuth env (w.state.files .auth) found w)
      (fun _ w' => Within A w'.outcomes ∧ w'.state = w.state.set .auth
        (if found.authMatchesPrevious then w.state.files .auth else found.previousAuth.map .text))
      (fun _ w' => A .failed ∧ Bound env p document b w'.state)
      (fun w' => A .crashed ∧ Bound env p document b w'.state) := by
  rw [restorePreviousAuth]
  split
  case isTrue => exact ⟨ho, (Disk.set_self rfl).symm⟩
  case isFalse =>
    exact meets_replaceWithSnapshot rfl ho found.previousAuth (fun _ ho => ⟨ho, rfl⟩)
      (fun hA _ _ => ⟨hA, hb⟩) fun hA _ _ => ⟨hA, hb⟩

theorem removeManagedCatalog_meets (hb : Bound env p document b w.state) (ho : Within A w.outcomes) :
    Meets (removeManagedCatalog env (w.state.files .catalog) w)
      (fun _ w' => Within A w'.outcomes ∧ w'.state = w.state.set .catalog none)
      (fun _ w' => A .failed ∧ Bound env p document b w'.state)
      (fun w' => A .crashed ∧ Bound env p document b w'.state) := by
  rw [removeManagedCatalog]
  split
  case isTrue =>
    exact meets_removeIfUnchanged rfl ho (fun _ ho => ⟨ho, rfl⟩) (fun hA _ _ => ⟨hA, hb⟩)
      fun hA _ _ => ⟨hA, hb⟩
  case isFalse hnone =>
    exact ⟨ho, (Disk.set_self (Option.not_isSome_iff_eq_none.mp hnone)).symm⟩

theorem deletePreviousSecret_meets (hb : Bound env p document b w.state) (ho : Within A w.outcomes) :
    Meets (deletePreviousSecret env b.previousAuthSecretRef w)
      (fun _ w' => Within A w'.outcomes ∧ w'.state = w.state.setSecret backupSecretRef none)
      (fun _ w' => A .failed ∧ Bound env p document b w'.state)
      (fun w' => A .crashed ∧ Bound env p document b w'.state) := by
  cases href : b.previousAuthSecretRef with
  | none => exact ⟨ho, (Disk.setSecret_self (hb.secret_of_noRef href)).symm⟩
  | some secretRef =>
    rw [hb.secretRef_eq href]
    exact meets_deleteSecret ho (fun _ ho => ⟨ho, rfl⟩) (fun hA _ _ => ⟨hA, hb⟩) fun hA _ _ => ⟨hA, hb⟩

/-- The writes of a restore go through bound states only. -/
theorem commitRestore_meets (h : env.Lawful) (hb : Bound env p document b w.state)
    (hpending : b.restorePending = true) (ho : Within A w.outcomes) {disk : Disk}
    (hfiles : ∀ file, file ≠ .backup → w.state.files file = disk.files file) {found : RestoreInspection}
    (href : found.backup.previousAuthSecretRef = b.previousAuthSecretRef)
    (hdocument : restoredDocument found = settle document) :
    Meets (commitRestore env disk found (some (.text (env.writeBackup b))) w)
      (fun _ w' => ∃ config, env.parseToml config = .ok (settle document) ∧
        w'.state = restoredDisk w.state config
          (if found.authMatchesPrevious then w.state.files .auth else found.previousAuth.map .text))
      (fun _ w' => A .failed ∧ Bound env p document b w'.state)
      (fun w' => A .crashed ∧ Bound env p document b w'.state) := by
  rw [commitRestore, hdocument, href, ← hfiles .config (by decide), ← hfiles .auth (by decide),
    ← hfiles .catalog (by decide)]
  have hread := h.parse_print (Content.textOf (w.state.files .config)) (settle document)
  have hreadable : Readable (if found.authMatchesPrevious then w.state.files .auth
      else found.previousAuth.map .text) := by
    split
    · exact hb.auth
    · intro bytes
      cases found.previousAuth <;> exact nofun
  refine Meets.bind (Q := fun _ w' => Within A w'.outcomes ∧ w'.state = w.state.set .config _)
    (meets_replaceIfDifferent rfl ho (fun _ ho => ⟨ho, rfl⟩) (fun hA _ _ => ⟨hA, hb⟩)
      fun hA _ _ => ⟨hA, hb⟩) fun _ w₁ ⟨ho₁, hw₁⟩ => ?_
  have hb₁ : Bound env p document b w₁.state := hw₁ ▸ hb.set_config hread
  have hauth₁ : w₁.state.files .auth = w.state.files .auth := by simp [hw₁]
  have hcatalog₁ : w₁.state.files .catalog = w.state.files .catalog := by simp [hw₁]
  rw [← hauth₁] at hreadable ⊢
  refine (restorePreviousAuth_meets hb₁ ho₁ found).bind fun _ w₂ ⟨ho₂, hw₂⟩ => ?_
  have hb₂ : Bound env p document b w₂.state := hw₂ ▸ hb₁.set_auth hreadable
  have hcatalog₂ : w₂.state.files .catalog = w.state.files .catalog := by simp [hw₂, hcatalog₁]
  rw [← hcatalog₂]
  refine (removeManagedCatalog_meets hb₂ ho₂).bind fun _ w₃ ⟨ho₃, hw₃⟩ => ?_
  have hb₃ : Bound env p document b w₃.state := hw₃ ▸ hb₂.remove_catalog hpending
  refine (deletePreviousSecret_meets hb₃ ho₃).bind fun _ w₄ ⟨ho₄, hw₄⟩ => ?_
  have hb₄ : Bound env p document b w₄.state := hw₄ ▸ hb₃.delete_secret
  refine meets_removeIfUnchanged hb₄.backup ho₄ (fun _ _ => ⟨_, hread, ?_⟩) (fun hA _ _ => ⟨hA, hb₄⟩)
    fun hA _ _ => ⟨hA, hb₄⟩
  rw [restoredDisk, ← hw₁, ← hw₂, ← hw₃, ← hw₄]

end

/-! ## A restore -/

/-- What a restore needs besides a backup that recognises the configuration and the catalog. -/
structure Accepted (env : Env) (b : ProfileBackup) (d : Disk) : Prop where
  baseUrl : trim b.managedBaseUrl ≠ ""
  auth : managedAuthMatchesSnapshot env (d.files .auth) b = .ok true ∨
    previousAuthMatchesSnapshot env (d.files .auth) b = true
  secret : managedAuthMatchesSnapshot env (d.files .auth) b = .ok true → b.previousAuthSecretRef.isSome →
    (b.previousAuthSecretRef.bind d.secrets).isSome

/-- The authentication that a restore leaves. -/
def restoredAuth (env : Env) (b : ProfileBackup) (d : Disk) : Option Content :=
  if previousAuthMatchesSnapshot env (d.files .auth) b then d.files .auth
  else (b.previousAuthSecretRef.bind d.secrets).map .text

theorem accepted_iff_of_matches {managed : Bool}
    (hmanaged : managedAuthMatchesSnapshot env (d.files .auth) b = .ok managed) :
    Accepted env b d ↔ trim b.managedBaseUrl ≠ "" ∧
      (!managed && !previousAuthMatchesSnapshot env (d.files .auth) b) = false ∧
      (managed && b.previousAuthSecretRef.isSome && (b.previousAuthSecretRef.bind d.secrets).isNone) = false := by
  constructor
  · rintro ⟨hurl, hauth, hsecret⟩
    rw [hmanaged] at hauth hsecret
    refine ⟨hurl, ?_, ?_⟩
    · rcases hauth with hauth | hauth
      · rw [Except.ok.inj hauth]
        rfl
      · rw [hauth, Bool.not_true, Bool.and_false]
    · cases managed with
      | false => rfl
      | true =>
        cases href : b.previousAuthSecretRef.isSome with
        | false => rfl
        | true =>
          obtain ⟨text, htext⟩ := Option.isSome_iff_exists.mp (hsecret rfl href)
          rw [htext]
          rfl
  · rintro ⟨hurl, hauth, hsecret⟩
    refine ⟨hurl, ?_, fun hm href => ?_⟩
    · rw [hmanaged]
      cases managed with
      | true => exact .inl rfl
      | false => exact .inr (by simpa using hauth)
    · obtain rfl := Except.ok.inj (hmanaged.symm.trans hm)
      simpa [href, Option.isSome_iff_ne_none] using hsecret

/-- A restore of a bound profile either gives up before its first write, or leaves the profile restored,
or stops where the profile is bound still. -/
theorem restore_meets (h : env.Lawful) {A : Outcome → Prop}
    (hb : Bound env p document b w.state) (ho : Within A w.outcomes) :
    Meets (restoreLocalLocked env w)
      (fun _ w' => Accepted env b w.state ∧ ∃ config, env.parseToml config = .ok (settle document) ∧
        w'.state = restoredDisk w.state config (restoredAuth env b w.state))
      (fun _ w' => (∃ b', Bound env p document b' w'.state) ∧ (A .failed ∨ ¬Accepted env b w.state))
      (fun w' => (∃ b', Bound env p document b' w'.state) ∧ A .crashed) := by
  obtain ⟨current, hcurrent, hstate⟩ := hb.config
  obtain ⟨managed, hmanaged⟩ := managedAuthMatchesSnapshot_of_readable hb.auth b
  have haccepted := accepted_iff_of_matches hmanaged
  rw [restoreLocalLocked, meets_bind, localBackup_of_bound h hb]
  by_cases hurl : trim b.managedBaseUrl = ""
  · rw [if_pos hurl]
    exact ⟨⟨b, hb⟩, .inr fun ha => ha.baseUrl hurl⟩
  rw [if_neg hurl]
  show Meets ((_ >>= _ : ProfileOp Unit) w) _ _ _
  rw [meets_bind, meets_get, meets_bind,
    inspectRestore_of_bound h hb hcurrent hstate hmanaged]
  by_cases hauth : (!managed && !previousAuthMatchesSnapshot env (w.state.files .auth) b) = true
  · rw [if_pos hauth]
    exact ⟨⟨b, hb⟩, .inr fun ha => nomatch hauth.symm.trans (haccepted.mp ha).2.1⟩
  rw [if_neg hauth]
  by_cases hsecret : (managed && b.previousAuthSecretRef.isSome &&
      (b.previousAuthSecretRef.bind w.state.secrets).isNone) = true
  · rw [if_pos hsecret]
    exact ⟨⟨b, hb⟩, .inr fun ha => nomatch hsecret.symm.trans (haccepted.mp ha).2.2⟩
  rw [if_neg hsecret]
  have ha : Accepted env b w.state :=
    haccepted.mpr ⟨hurl, Bool.not_eq_true _ ▸ hauth, Bool.not_eq_true _ ▸ hsecret⟩
  have hdocument : restoredDocument ⟨b, current, b.previousAuthSecretRef.bind w.state.secrets,
      previousAuthMatchesSnapshot env (w.state.files .auth) b⟩ = settle document :=
    restoreLocalConfig_eq_settle hb.attachable hb.records hstate
  rw [meets_ofExcept_ok]
  dsimp only
  rw [meets_bind, meets_get, if_neg (not_not.mpr rfl)]
  cases hpending : b.restorePending with
  | true =>
    rw [if_pos rfl, hb.backup]
    refine (commitRestore_meets h hb hpending ho (fun _ _ => rfl) rfl hdocument).mono
      (fun _ w' ⟨config, hread, hw'⟩ => ⟨ha, config, hread, hw'⟩)
      (fun _ w' ⟨hA, hb'⟩ => ⟨⟨b, hb'⟩, .inl hA⟩) fun w' ⟨hA, hb'⟩ => ⟨⟨b, hb'⟩, hA⟩
  | false =>
    rw [if_neg Bool.false_ne_true, meets_bind]
    refine meets_replaceIfUnchanged rfl ho (fun o ho => ?_) (fun hA _ _ => ⟨⟨b, hb⟩, .inl hA⟩)
      fun hA _ _ => ⟨⟨b, hb⟩, hA⟩
    have hfiles (file : File) (hfile : file ≠ .backup) :
        (w.state.set .backup (some (.text (env.writeBackup { b with restorePending := true })))).files file =
          w.state.files file := by rw [Disk.files_set, if_neg hfile]
    have hcommit := commitRestore_meets (w := ⟨_, o⟩) h hb.pend rfl ho hfiles rfl hdocument
    refine hcommit.mono (fun _ w' ⟨config, hread, hw'⟩ => ⟨ha, config, hread, ?_⟩)
      (fun _ w' ⟨hA, hb'⟩ => ⟨⟨_, hb'⟩, .inl hA⟩) fun w' ⟨hA, hb'⟩ => ⟨⟨_, hb'⟩, hA⟩
    rw [hw']
    refine Disk.ext (fun file => ?_) fun secretRef => ?_
    · cases file <;> simp [restoredDisk, restoredAuth]
    · simp [restoredDisk]

/-! ## A refresh -/

/-- The catalog is the one the backup holds for stable, or the one it holds for pending. -/
def CatalogKnown (env : Env) (b : ProfileBackup) (content : Option Content) : Prop :=
  content.map env.sha256Hex = b.managedModelCatalogHash ∨
    ∃ hash ∈ b.managedModelCatalogPendingHash, content.map env.sha256Hex = some hash

variable {content : Option Content}

theorem valid_of_known (h : env.Lawful)
    (hpath : b.managedModelCatalogPath = some env.catalogPath)
    (hhash : ∀ hash ∈ b.managedModelCatalogHash, isHash hash = true)
    (hpending : ∀ hash ∈ b.managedModelCatalogPendingHash, isHash hash = true)
    (hremove : b.managedModelCatalogPendingRemove = false) (hknown : CatalogKnown env b content) :
    validManagedModelCatalog env b content = true := by
  rw [validManagedModelCatalog, if_neg, hpath]
  · dsimp only
    rw [if_neg (not_not.mpr h.portable_catalogPath)]
    split
    case isTrue => rfl
    case isFalse =>
      rcases hknown with hstable | ⟨hash, hmem, hknown⟩
      · cases hcatalog : b.managedModelCatalogHash with
        | none =>
          rw [hcatalog] at hstable
          simp [Option.map_eq_none_iff.mp hstable]
        | some hash =>
          rw [hcatalog] at hstable hhash
          simp [hstable, hhash hash rfl]
      · rw [Option.mem_def.mp hmem]
        simp [hknown, hpending hash hmem]
  · rw [hremove]
    cases hcatalog : b.managedModelCatalogHash <;> cases hcatalog' : b.managedModelCatalogPendingHash <;>
      simp_all

/-- The digests of a backup that knows its catalog. -/
structure CatalogHashes (b : ProfileBackup) : Prop where
  stable : ∀ hash ∈ b.managedModelCatalogHash, isHash hash = true
  pending : ∀ hash ∈ b.managedModelCatalogPendingHash, isHash hash = true

theorem known_of_valid (hremove : b.managedModelCatalogPendingRemove = false)
    (hrestore : b.restorePending = false) (hvalid : validManagedModelCatalog env b content = true) :
    CatalogHashes b ∧ (b.managedModelCatalogPath.isSome → CatalogKnown env b content) := by
  rw [validManagedModelCatalog] at hvalid
  split at hvalid
  case isTrue => exact nomatch hvalid
  case isFalse hmetadata =>
    simp only [Bool.or_eq_true, not_or, Option.any_eq_true, not_exists] at hmetadata
    refine ⟨⟨fun hash hmem => ?_, fun hash hmem => ?_⟩, fun hpath => ?_⟩
    · by_contra hno
      exact hmetadata.1.1 hash ⟨hmem, by simpa using hno⟩
    · by_contra hno
      exact hmetadata.1.2 hash ⟨hmem, by simpa using hno⟩
    · obtain ⟨path, hpath⟩ := Option.isSome_iff_exists.mp hpath
      rw [hpath] at hvalid
      dsimp only at hvalid
      split at hvalid
      case isTrue => exact nomatch hvalid
      case isFalse =>
        rw [hrestore, hremove] at hvalid
        simp only [Bool.false_and, Bool.false_eq_true, if_false, Bool.or_false, Bool.or_eq_true] at hvalid
        rcases hvalid with hstable | hpending
        · refine .inl ?_
          cases hcatalog : b.managedModelCatalogHash with
          | none =>
            rw [hcatalog] at hstable
            rw [Option.isNone_iff_eq_none.mp hstable]
            rfl
          | some hash =>
            rw [hcatalog] at hstable
            simpa using (Bool.and_eq_true_iff.mp hstable).2
        · obtain ⟨hash, hmem, hknown⟩ := (Option.any_eq_true _ _).mp hpending
          exact .inr ⟨hash, hmem, by simpa using (Bool.and_eq_true_iff.mp hknown).2⟩

/-- A backup with other digests of the catalog. -/
def ProfileBackup.withCatalog (b : ProfileBackup) (hash pendingHash : Option String) : ProfileBackup :=
  { b with
    managedModelCatalogHash := hash
    managedModelCatalogPendingHash := pendingHash
    managedModelCatalogPendingRemove := false }

theorem Bound.withCatalog (hb : Bound env p document b d) {hash pendingHash : Option String} {d' : Disk}
    (hbackup : d'.files .backup = some (.text (env.writeBackup (b.withCatalog hash pendingHash))))
    (hsame : ∀ file, file ≠ .backup → file ≠ .catalog → d'.files file = d.files file)
    (hsecrets : d'.secrets = d.secrets)
    (hvalid : validManagedModelCatalog env (b.withCatalog hash pendingHash) (d'.files .catalog) = true) :
    Bound env p document (b.withCatalog hash pendingHash) d' := by
  have hr := hb.records
  refine hb.replace ⟨hr.version, hr.modelProvider, hr.modelCatalog, hr.effort, hr.effortCleared, hr.authHash,
    hr.secretRef, hr.isHash, hr.baseUrl, hr.oauth, hr.catalogPath, rfl⟩ hbackup hvalid ?_
    (by rw [hsame .auth (by decide) (by decide)]; exact hb.auth) (by rw [hsecrets]; exact hb.secret)
  obtain ⟨current, hcurrent, hstate⟩ := hb.config
  refine ⟨current, by rw [hsame .config (by decide) (by decide)]; exact hcurrent, ?_⟩
  cases hstate with
  | original => exact .original
  | restored => exact .restored
  | managed hkey hhash hws => exact .managed hkey hhash hws

section
variable {w : World Disk} {A : Outcome → Prop}

/-- Bound, with the profile's own files and the secret as they are on `d`. -/
def StillBound (env : Env) (p : Disk) (document : Document) (d d' : Disk) : Prop :=
  (∃ b', Bound env p document b' d') ∧ d'.files .config = d.files .config ∧ d'.files .auth = d.files .auth ∧
    d'.secrets = d.secrets

theorem Bound.still (hb : Bound env p document b d) : StillBound env p document d d :=
  ⟨⟨b, hb⟩, rfl, rfl, rfl⟩

theorem reconcile_meets (h : env.Lawful) (hb : Bound env p document b w.state)
    (hrestore : b.restorePending = false) (ho : Within A w.outcomes) :
    Meets (reconcilePendingCatalogState env (w.state.files .backup) b (w.state.files .catalog) w)
      (fun value w' => Within A w'.outcomes ∧ value.2.restorePending = false ∧
        value.2.managedModelCatalogPendingHash = none ∧ Bound env p document value.2 w'.state ∧
        value.1 = w'.state.files .backup ∧ w'.state = w.state.set .backup (w'.state.files .backup))
      (fun _ w' => StillBound env p document w.state w'.state)
      (fun w' => StillBound env p document w.state w'.state) := by
  obtain ⟨hhashes, hknown⟩ := known_of_valid hb.records.pendingRemove hrestore hb.catalog
  rw [reconcilePendingCatalogState]
  cases hpending : b.managedModelCatalogPendingHash with
  | none => exact ⟨ho, hrestore, hpending, hb, rfl, (Disk.set_self rfl).symm⟩
  | some pendingHash =>
    -- The path is there: a backup without one has no pending digest.
    have hpath : b.managedModelCatalogPath = some env.catalogPath := by
      cases hpath : b.managedModelCatalogPath with
      | some path => rw [hb.records.catalogPath path hpath]
      | none =>
        have hvalid := hb.catalog
        rw [validManagedModelCatalog, hpath, hpending] at hvalid
        simp at hvalid
    have settle_meets (hash : Option String) (hhash : ∀ value ∈ hash, isHash value = true)
        (hcurrent : (w.state.files .catalog).map env.sha256Hex = hash) :
        Meets ((do
            replaceIfUnchanged env .backup (w.state.files .backup) (env.writeBackup (b.withCatalog hash none))
            return (some (.text (env.writeBackup (b.withCatalog hash none))), b.withCatalog hash none) :
            ProfileOp (Option Content × ProfileBackup)) w)
          (fun value w' => Within A w'.outcomes ∧ value.2.restorePending = false ∧
            value.2.managedModelCatalogPendingHash = none ∧ Bound env p document value.2 w'.state ∧
            value.1 = w'.state.files .backup ∧ w'.state = w.state.set .backup (w'.state.files .backup))
          (fun _ w' => StillBound env p document w.state w'.state)
          (fun w' => StillBound env p document w.state w'.state) := by
      rw [meets_bind]
      refine meets_replaceIfUnchanged rfl ho (fun o ho => ⟨ho, hrestore, rfl, ?_, by simp, by simp⟩)
        (fun _ _ _ => hb.still) fun _ _ _ => hb.still
      refine hb.withCatalog (by simp) (fun file hne _ => by simp [hne]) (by simp) ?_
      refine valid_of_known h hpath hhash nofun rfl (.inl ?_)
      simpa [ProfileBackup.withCatalog] using hcurrent
    dsimp only
    split
    case isTrue hcurrent =>
      have hset := settle_meets (some pendingHash) (fun value hmem => hhashes.pending value
        (by rw [hpending]; exact hmem)) hcurrent
      simpa [ProfileBackup.withCatalog, hb.records.pendingRemove] using hset
    case isFalse =>
      split
      case isTrue hcurrent =>
        have hcurrent : (w.state.files .catalog).map env.sha256Hex = b.managedModelCatalogHash := by
          rcases hcurrent with hcurrent | ⟨hhash, hnone⟩
          · exact hcurrent
          · rw [hnone, hhash]; rfl
        have hset := settle_meets b.managedModelCatalogHash hhashes.stable hcurrent
        simpa [ProfileBackup.withCatalog, hb.records.pendingRemove] using hset
      case isFalse => exact hb.still

theorem commitRefresh_meets (h : env.Lawful) (hb : Bound env p document b w.state)
    (hrestore : b.restorePending = false) (hpending : b.managedModelCatalogPendingHash = none)
    (hpath : b.managedModelCatalogPath.isSome) (ho : Within A w.outcomes) {disk : Disk}
    (hcatalog : w.state.files .catalog = disk.files .catalog) (catalog : String) :
    Meets (commitRefresh env disk (w.state.files .backup) b catalog w)
      (fun _ w' => StillBound env p document w.state w'.state)
      (fun _ w' => StillBound env p document w.state w'.state)
      (fun w' => StillBound env p document w.state w'.state) := by
  obtain ⟨hhashes, hknown⟩ := known_of_valid hb.records.pendingRemove hrestore hb.catalog
  have hstable : (w.state.files .catalog).map env.sha256Hex = b.managedModelCatalogHash := by
    rcases hknown hpath with hstable | ⟨hash, hmem, -⟩
    · exact hstable
    · rw [hpending] at hmem
      exact nomatch hmem
  obtain ⟨path, hpath⟩ := Option.isSome_iff_exists.mp hpath
  have hpath : b.managedModelCatalogPath = some env.catalogPath := by
    rw [hpath, hb.records.catalogPath path hpath]
  have hhash : isHash (keyHash env catalog) = true := isHash_sha256Hex h _
  have hpendingHash (hash : String) (hmem : hash ∈ some (keyHash env catalog)) : isHash hash = true := by
    rw [← Option.some.inj hmem]
    exact hhash
  -- The three disks of the refresh: marked, with the new catalog, and committed.
  have hmarked : Bound env p document (b.withCatalog b.managedModelCatalogHash (some (keyHash env catalog)))
      (w.state.set .backup (some (.text (env.writeBackup
        (b.withCatalog b.managedModelCatalogHash (some (keyHash env catalog))))))) :=
    hb.withCatalog (by simp) (fun file hne _ => by simp [hne]) rfl
      (valid_of_known h hpath hhashes.stable hpendingHash rfl (.inl (by
        rw [Disk.files_set, if_neg (by decide)]
        exact hstable)))
  set marked := w.state.set .backup (some (.text (env.writeBackup
    (b.withCatalog b.managedModelCatalogHash (some (keyHash env catalog)))))) with hmarked'
  have hmarked_still : StillBound env p document w.state marked :=
    ⟨⟨_, hmarked⟩, by simp [hmarked'], by simp [hmarked'], rfl⟩
  have hreplaced : StillBound env p document w.state (marked.set .catalog (some (.text catalog))) := by
    refine ⟨⟨_, hb.withCatalog (by simp [hmarked']) (fun file hne hne' => by simp [hmarked', hne, hne']) rfl
      (valid_of_known h hpath hhashes.stable hpendingHash rfl (.inr ⟨_, rfl, ?_⟩))⟩, by simp [hmarked'],
      by simp [hmarked'], rfl⟩
    simp [keyHash]
  rw [commitRefresh, meets_bind]
  refine meets_replaceIfUnchanged rfl ho (fun o ho => ?_) (fun _ _ _ => hb.still) fun _ _ _ => hb.still
  rw [meets_bind, meets_orRollback, ← hcatalog]
  refine meets_replaceIfUnchanged (by simp) ho (fun o ho => ?_) (fun _ o ho => ?_) fun _ _ _ => hmarked_still
  · refine meets_replaceIfUnchanged (by simp [ProfileBackup.withCatalog]) ho (fun o ho => ?_)
      (fun _ _ _ => hreplaced) fun _ _ _ => hreplaced
    refine ⟨⟨b.withCatalog (some (keyHash env catalog)) none, hb.withCatalog (by simp; rfl)
      (fun file hne hne' => by simp [hne, hne']) rfl
      (valid_of_known h hpath hpendingHash nofun rfl (.inl ?_))⟩, by simp, by simp, rfl⟩
    simp [keyHash, ProfileBackup.withCatalog]
  · -- The catalog could not be written: the mark is taken back.
    rw [rollbackFile, hb.backup, restoreSnapshotIfUnchanged, snapshotText]
    dsimp only
    refine meets_replaceIfUnchanged (by simp [ProfileBackup.withCatalog]) ho (fun o ho => ?_)
      (fun _ _ _ => hmarked_still) fun _ _ _ => hmarked_still
    refine ⟨⟨b, hb.replace hb.records (by simp) (by simpa using hb.catalog) (by simpa using hb.config)
      (by simpa using hb.auth) (by simpa using hb.secret)⟩, by simp, by simp, rfl⟩

/-- A refresh leaves the profile bound, whatever becomes of its writes, and does not touch the profile's
own files. -/
theorem refresh_meets (h : env.Lawful) (hb : Bound env p document b w.state) (ho : Within A w.outcomes)
    (catalogJson : String) :
    Meets (refreshManagedModelCatalog env catalogJson w)
      (fun _ w' => StillBound env p document w.state w'.state)
      (fun _ w' => StillBound env p document w.state w'.state)
      (fun w' => StillBound env p document w.state w'.state) := by
  rw [refreshManagedModelCatalog, meets_bind, localBackup_of_bound h hb]
  split
  case isTrue => exact hb.still
  case isFalse =>
    show Meets ((_ >>= _ : ProfileOp Bool) w) _ _ _
    rw [meets_bind, meets_get, meets_bind, hb.backup, parseBackupSnapshot_writeBackup h, meets_ofExcept_ok]
    dsimp only
    split
    case isTrue => exact hb.still
    case isFalse hpending =>
      have hrestore : b.restorePending = false := by
        by_contra hrestore
        exact hpending (by simp [hrestore])
      rw [← hb.backup]
      refine (reconcile_meets h hb hrestore ho).bind fun value w₁ ⟨ho₁, hrestore₁, hpending₁, hb₁, hbytes, hw₁⟩ => ?_
      obtain ⟨backupBytes, b₁⟩ := value
      dsimp only at hrestore₁ hpending₁ hb₁ hbytes ⊢
      subst hbytes
      have hsame (file : File) (hne : file ≠ .backup) : w₁.state.files file = w.state.files file := by
        rw [hw₁, Disk.files_set, if_neg hne]
      have hstill {d' : Disk} (hstill : StillBound env p document w₁.state d') :
          StillBound env p document w.state d' := by
        obtain ⟨hb', hconfig, hauth, hsecrets⟩ := hstill
        refine ⟨hb', hconfig.trans (hsame _ (by decide)), hauth.trans (hsame _ (by decide)), hsecrets.trans ?_⟩
        rw [hw₁, Disk.secrets_set]
      rw [← hsame .catalog (by decide), ← hsame .config (by decide), ← hsame .auth (by decide)]
      rw [hb₁.catalog, if_neg (by simp)]
      split
      case isTrue => exact hstill hb₁.still
      case isFalse hpath =>
        obtain ⟨current, hcurrent, -⟩ := hb₁.config
        obtain ⟨managed₁, hmanaged₁⟩ := managedAuthMatchesSnapshot_of_readable hb₁.auth b₁
        rw [hcurrent, meets_bind, meets_ofExcept_ok]
        split
        case isTrue => exact hstill hb₁.still
        case isFalse =>
          rw [hmanaged₁, meets_bind, meets_ofExcept_ok]
          split
          case isTrue => exact hstill hb₁.still
          case isFalse =>
            rw [meets_bind]
            cases env.buildManagedModelCatalog b₁.previousModelCatalogJson (w₁.state.files .catalog)
                catalogJson with
            | error e => exact hstill hb₁.still
            | ok catalog =>
              rw [meets_ofExcept_ok]
              split
              case isTrue => exact hstill hb₁.still
              case isFalse =>
                rw [meets_bind]
                refine (commitRefresh_meets h hb₁ hrestore₁ hpending₁ (by simpa [Option.isSome_iff_ne_none] using hpath)
                  ho₁ (hsame _ (by decide)) catalog).mono (fun _ _ h' => hstill h') (fun _ _ h' => hstill h')
                  fun _ h' => hstill h'

end

end

end Zenith.Profiles
