import Mathlib
import Zenith.Profiles.Reversible

/-!
# An attach one of whose writes fails

Every write of an attach but the last has a compensation. `failed_attach_iff` says what is left when one
write fails and the compensating ones succeed: the disk is as it was before, unless the write is the one
that commits the backup, the compensation cannot put back what was there (a stale secret is deleted, a
catalog that is not UTF-8 cannot be written), or an old backup was migrated first.
-/

namespace Zenith.Profiles

open Zenith.Faults Zenith.Tables Zenith.Text

section
variable (env : Env)

/-! ## What compensations leave -/

/-- The secrets after `cleanup_created_backup_secret`. -/
def cleanedSecrets (created : Bool) (secretRef : Option String) (secrets : String → Option String) :
    String → Option String :=
  match created, secretRef with
  | true, some secretRef => Function.update secrets secretRef none
  | _, _ => secrets

/-- The secrets after `restore_secret_snapshot`. -/
def putBackSecret (snapshot : Option (String × Option String)) (secrets : String → Option String) :
    String → Option String :=
  match snapshot with
  | none => secrets
  | some (secretRef, value) => Function.update secrets secretRef value

variable {env}

theorem cleanedSecrets_false (secretRef : Option String) (secrets : String → Option String) :
    cleanedSecrets false secretRef secrets = secrets := rfl

theorem does_cleanup (env : Env) (created : Bool) (secretRef : Option String) (s : Disk) :
    (cleanupCreatedBackupSecret env created secretRef).Does s
      { s with secrets := cleanedSecrets created secretRef s.secrets } := by
  cases created <;> cases secretRef <;> rfl

theorem does_restoreSecretSnapshot (snapshot : Option (String × Option String)) (s : Disk) :
    (restoreSecretSnapshot env snapshot).Does s { s with secrets := putBackSecret snapshot s.secrets } := by
  rcases snapshot with _ | ⟨secretRef, _ | value⟩ <;> rfl

variable {file : File} {expected : Option Content}

theorem does_replaceIfUnchanged {s : Disk}
    (h : s.files file = expected) (content : String) :
    (replaceIfUnchanged env file expected content).Does s (s.set file (some (.text content))) :=
  replaceIfUnchanged_eq (w := ⟨s, []⟩) h content

theorem does_removeIfUnchanged {s : Disk}
    (h : s.files file = expected) : (removeIfUnchanged env file expected).Does s (s.set file none) := by
  rw [Op.Does, removeIfUnchanged_eq (w := ⟨s, []⟩) h]
  split
  case isTrue hnone => rw [Disk.set_self (h.trans hnone)]
  case isFalse => rfl

/-- A file that can be read is put back. -/
theorem does_restoreSnapshot {s : Disk} {expected previous : Option Content}
    (h : s.files file = expected) (hprevious : Readable previous) :
    (restoreSnapshotIfUnchanged env file expected previous).Does s (s.set file previous) := by
  rw [restoreSnapshotIfUnchanged]
  rcases previous with _ | (text | bytes)
  · exact does_removeIfUnchanged h
  · exact does_replaceIfUnchanged h text
  · exact absurd rfl (hprevious bytes)

/-- A file of other bytes is left as it is. -/
theorem leaves_restoreSnapshot_binary {bytes : List UInt8}
    (s : Disk) : (restoreSnapshotIfUnchanged env file expected (some (.binary bytes))).Leaves s s :=
  Op.leaves_throw _ s

theorem leaves_mergeRollbacks {first second : ProfileOp Unit} {s s' s'' : Disk} (h : first.Leaves s s')
    (h' : second.Leaves s' s'') : (mergeRollbacks first second).Leaves s s'' := by
  obtain ⟨result, hrun⟩ := h
  obtain ⟨result', hrun'⟩ := h'
  refine ⟨mergeErrors result result', ?_⟩
  have hmerge : mergeRollbacks first second ⟨s, []⟩ =
      Op.ofExcept (mergeErrors result result') ⟨s'', []⟩ := by
    show Op.bind first.attempt _ ⟨s, []⟩ = _
    rw [Op.bind, hrun]
    show Op.bind second.attempt _ ⟨s', []⟩ = _
    rw [Op.bind, hrun']
  rw [Op.attempt, hmerge]
  cases mergeErrors result result' <;> rfl

end

/-! ## The stages of an attach -/

section
variable (env : Env) (d : Disk) (found : AttachInspection)

/-- The previous authentication goes into its secret: on a first attach where there is one, and whenever
another provider has taken the profile over. -/
def savesSecret : Bool :=
  found.externalTakeover || (found.existingBackup.isNone && (previousAuthText (d.files .auth)).isSome)

/-- The managed catalog is written, or removed. -/
def changesCatalog : Bool := found.catalog.isSome || (found.hadManagedCatalog && (d.files .catalog).isSome)

/-- The catalog after its stage. -/
def changedCatalog : Option Content :=
  match found.catalog, found.hadManagedCatalog with
  | some content, _ => some (.text content)
  | none, true => none
  | none, false => d.files .catalog

/-- The catalog that the compensation leaves: bytes that are not UTF-8 are not written again. -/
def undoneCatalog : Option Content :=
  match changesCatalog d found, d.files .catalog with
  | true, some (.binary _) => changedCatalog d found
  | _, content => content

/-- The secrets that the compensation leaves: a first attach deletes the one it has written. -/
def undoneSecrets : String → Option String :=
  if found.existingBackup.isNone ∧ (previousAuthText (d.files .auth)).isSome then
    Function.update d.secrets backupSecretRef none
  else d.secrets

end

section
variable {env : Env} {d s : Disk} {found : AttachInspection}

theorem changedCatalog_of_unchanged (h : changesCatalog d found = false) :
    changedCatalog d found = d.files .catalog := by
  rw [changesCatalog, Bool.or_eq_false_iff] at h
  rw [changedCatalog]
  cases hcatalog : found.catalog with
  | some content => rw [hcatalog] at h; exact nomatch h.1
  | none =>
    cases hmanaged : found.hadManagedCatalog with
    | false => rfl
    | true =>
      rw [hmanaged, Bool.true_and] at h
      exact (Option.not_isSome_iff_eq_none.mp (by simp [h.2])).symm

theorem leaves_rollbackModelCatalogChange (env : Env) (h : s.files .catalog = changedCatalog d found) :
    (rollbackModelCatalogChange env found.catalog found.hadManagedCatalog (d.files .catalog)).Leaves s
      (s.set .catalog (undoneCatalog d found)) := by
  have hunchanged (hchanges : changesCatalog d found = false) :
      s.set .catalog (undoneCatalog d found) = s := by
    rw [undoneCatalog, hchanges]
    exact Disk.set_self (h.trans (changedCatalog_of_unchanged hchanges))
  have hbinary {bytes : List UInt8} (hcontent : d.files .catalog = some (.binary bytes))
      (hchanges : changesCatalog d found = true) : s.set .catalog (undoneCatalog d found) = s := by
    rw [undoneCatalog, hchanges, hcontent]
    exact Disk.set_self h
  have htext (hreadable : Readable (d.files .catalog)) : undoneCatalog d found = d.files .catalog := by
    rw [undoneCatalog]
    split
    case h_1 hcontent => exact absurd hcontent (hreadable _)
    case h_2 => rfl
  cases hcatalog : found.catalog with
  | some content =>
    have hchanges : changesCatalog d found = true := by simp [changesCatalog, hcatalog]
    have hcurrent : s.files .catalog = some (.text content) := by rw [h, changedCatalog, hcatalog]
    show (rollbackFile env .catalog content (d.files .catalog)).Leaves s _
    rw [rollbackFile]
    by_cases hreadable : Readable (d.files .catalog)
    · rw [htext hreadable]
      exact (does_restoreSnapshot hcurrent hreadable).leaves
    · obtain ⟨bytes, hcontent⟩ := not_forall_not.mp hreadable
      rw [hbinary hcontent hchanges, hcontent]
      exact leaves_restoreSnapshot_binary s
  | none =>
    cases hmanaged : found.hadManagedCatalog with
    | false =>
      rw [hunchanged (by simp [changesCatalog, hcatalog, hmanaged])]
      exact (Op.does_pure s).leaves
    | true =>
      have hcurrent : s.files .catalog = none := by rw [h, changedCatalog, hcatalog, hmanaged]
      show (restoreSnapshotIfUnchanged env .catalog none (d.files .catalog)).Leaves s _
      by_cases hreadable : Readable (d.files .catalog)
      · rw [htext hreadable]
        exact (does_restoreSnapshot hcurrent hreadable).leaves
      · obtain ⟨bytes, hcontent⟩ := not_forall_not.mp hreadable
        rw [hbinary hcontent (by simp [changesCatalog, hmanaged, hcontent]), hcontent]
        exact leaves_restoreSnapshot_binary s

/-- The compensation leaves the disk as it was just when there was nothing it could not put back. -/
theorem undoneCatalog_eq_iff :
    undoneCatalog d found = d.files .catalog ↔ changesCatalog d found = false ∨ Readable (d.files .catalog) := by
  rw [undoneCatalog]
  split
  case h_1 bytes hchanges hcontent =>
    rw [hchanges, hcontent]
    refine iff_of_false ?_ ?_
    · rw [changedCatalog]
      split
      · exact nofun
      · exact nofun
      · rename_i hcatalog hmanaged
        simp [changesCatalog, hcatalog, hmanaged] at hchanges
    · rintro (hfalse | hreadable)
      · exact nomatch hfalse
      · exact hreadable bytes rfl
  case h_2 hcases =>
    refine iff_of_true rfl ?_
    cases hchanges : changesCatalog d found with
    | false => exact .inl rfl
    | true => exact .inr fun bytes hcontent => hcases _ hchanges hcontent

theorem undoneSecrets_eq_iff : undoneSecrets d found = d.secrets ↔
    (found.existingBackup.isNone ∧ (previousAuthText (d.files .auth)).isSome →
      d.secrets backupSecretRef = none) := by
  rw [undoneSecrets]
  split
  case isTrue h =>
    simp only [h, and_self, forall_const]
    constructor
    · intro heq
      rw [← heq, Function.update_self]
    · intro hnone
      rw [← hnone, Function.update_eq_self]
  case isFalse h => exact iff_of_true rfl fun hcond => absurd hcond h

end

/-! ## The previous authentication -/

section
variable (env : Env) (d : Disk) (found : AttachInspection) (supportsWebsockets : Bool)

/-- The reference of the secret that a takeover rewrites. -/
def rebasedRef : String :=
  (rebaseBackup env d found supportsWebsockets).previousAuthSecretRef.getD backupSecretRef

/-- A backup with the digest of what the secret keeps, where it had none. -/
def filledBackup (secrets : String → Option String) (backup : ProfileBackup) : ProfileBackup :=
  match backup.previousAuthHash, backup.previousAuthSecretRef with
  | none, some secretRef => { backup with previousAuthHash := (secrets secretRef).map (keyHash env) }
  | _, _ => backup

/-- The backup once the previous authentication is kept. -/
def keptBackup : ProfileBackup :=
  let backup := rebaseBackup env d found supportsWebsockets
  if found.externalTakeover then
    { backup with previousAuthSecretRef :=
        (previousAuthText (d.files .auth)).map fun _ => rebasedRef env d found supportsWebsockets }
  else if found.existingBackup.isNone then
    { backup with previousAuthSecretRef := (previousAuthText (d.files .auth)).map fun _ => backupSecretRef }
  else filledBackup env d.secrets backup

/-- The secrets once the previous authentication is kept. -/
def keptSecrets : String → Option String :=
  if found.externalTakeover then
    Function.update d.secrets (rebasedRef env d found supportsWebsockets) (previousAuthText (d.files .auth))
  else
    match found.existingBackup, previousAuthText (d.files .auth) with
    | none, some text => Function.update d.secrets backupSecretRef (some text)
    | _, _ => d.secrets

/-- What a takeover remembers for its rollback. -/
def rebasedSecret : Option (String × Option String) :=
  if found.externalTakeover then
    some (rebasedRef env d found supportsWebsockets, d.secrets (rebasedRef env d found supportsWebsockets))
  else none

end

/-- What an attach knows of the disk after its inspection. -/
structure FoundOn (env : Env) (d : Disk) (found : AttachInspection) : Prop where
  config : Readable (d.files .config)
  auth : Readable (d.files .auth)
  existingBackup : parseBackupSnapshot env (d.files .backup) = .ok found.existingBackup
  externalTakeover : found.externalTakeover = true → found.existingBackup.isNone = false

section
variable {env : Env} {d : Disk} {found : AttachInspection} {supportsWebsockets : Bool}

theorem foundOn_of_inspect {attach : LocalAttach} (h : inspectAttach env attach d = .ok found) :
    FoundOn env d found := by
  rw [inspectAttach] at h
  obtain ⟨config, hconfig, h⟩ := bind_eq_ok.mp h
  obtain ⟨auth, hauth, h⟩ := bind_eq_ok.mp h
  obtain ⟨document, -, h⟩ := bind_eq_ok.mp h
  obtain ⟨_, -, h⟩ := bind_eq_ok.mp h
  split at h
  case isTrue => cases h
  case isFalse =>
    obtain ⟨existing, hexisting, h⟩ := bind_eq_ok.mp h
    dsimp only at h
    split at h
    case isTrue => cases h
    case isFalse =>
      split at h
      case isTrue => cases h
      case isFalse =>
        split at h
        case isTrue => cases h
        case isFalse =>
          obtain ⟨_, -, h⟩ := bind_eq_ok.mp h
          obtain ⟨catalog, -, h⟩ := bind_eq_ok.mp h
          obtain rfl := (Except.ok.inj h).symm
          refine ⟨readable_of_snapshotText hconfig, readable_of_snapshotText hauth, hexisting, ?_⟩
          cases existing with
          | none => rintro ⟨⟩
          | some _ => exact fun _ => rfl

theorem readable_of_parseBackup {content : Option Content} {backup : Option ProfileBackup}
    (h : parseBackupSnapshot env content = .ok backup) : Readable content := by
  rintro bytes rfl
  exact nomatch h

theorem secretRef_rebaseBackup (env : Env) (d : Disk) (supportsWebsockets : Bool)
    (h : found.existingBackup = none) : (rebaseBackup env d found supportsWebsockets).previousAuthSecretRef = none := by
  unfold rebaseBackup
  simp only [apply_ite ProfileBackup.previousAuthSecretRef, ite_self]
  rw [h]
  rfl

theorem catalogPath_rebaseBackup : (rebaseBackup env d found supportsWebsockets).managedModelCatalogPath =
    found.existingBackup.bind ProfileBackup.managedModelCatalogPath := by
  unfold rebaseBackup
  simp only [apply_ite ProfileBackup.managedModelCatalogPath, ite_self]
  cases found.existingBackup <;> rfl

theorem catalogPath_keptBackup : (keptBackup env d found supportsWebsockets).managedModelCatalogPath =
    found.existingBackup.bind ProfileBackup.managedModelCatalogPath := by
  rw [← @catalogPath_rebaseBackup env d found supportsWebsockets, keptBackup, filledBackup]
  split
  · rfl
  · split
    · rfl
    · split <;> rfl

theorem keepPreviousAuth_later {w : World Disk} {backup : ProfileBackup}
    (h : found.existingBackup.isNone = false) :
    keepPreviousAuth env d found backup w = (.ok (filledBackup env w.state.secrets backup), w) := by
  rw [keepPreviousAuth, if_neg (by simp [h]), filledBackup]
  cases backup.previousAuthHash <;> cases backup.previousAuthSecretRef <;> rfl

theorem filledBackup_of_hash {secrets : String → Option String} {backup : ProfileBackup}
    (h : backup.previousAuthHash = none → backup.previousAuthSecretRef = none) :
    filledBackup env secrets backup = backup := by
  rw [filledBackup]
  split
  case h_1 hhash href => exact nomatch (h hhash).symm.trans href
  case h_2 => rfl

theorem keptBackup_first (htakeover : found.externalTakeover = false) (h : found.existingBackup = none) :
    keptBackup env d found supportsWebsockets =
      { rebaseBackup env d found supportsWebsockets with
        previousAuthSecretRef := (previousAuthText (d.files .auth)).map fun _ => backupSecretRef } := by
  rw [keptBackup, htakeover, h]
  rfl

/-- The secret is kept, or its write fails and nothing has been done. -/
theorem secretStage_failing (hf : FoundOn env d found) {place : Nat}
    (next : ProfileBackup → Option (String × Option String) → ProfileOp Unit)
    {Q : Unit → World Disk → Prop} {E : LocalPoolError → World Disk → Prop} {C : World Disk → Prop}
    (hE : savesSecret d found = true → place = 0 → ∀ e, E e ⟨d, []⟩)
    (hnext : ∀ rest, place = rest + (savesSecret d found).toNat →
      Meets (next (keptBackup env d found supportsWebsockets) (rebasedSecret env d found supportsWebsockets)
        ⟨{ d with secrets := keptSecrets env d found supportsWebsockets }, failingAt rest⟩) Q E C) :
    Meets ((do
        let (backup, rebasedSecret) ← rebaseSecret env d found (rebaseBackup env d found supportsWebsockets)
        let backup ← keepPreviousAuth env d found backup
        next backup rebasedSecret : ProfileOp Unit) ⟨d, failingAt place⟩) Q E C := by
  rw [meets_bind, rebaseSecret]
  cases htakeover : found.externalTakeover with
  | true =>
    have hlater := hf.externalTakeover htakeover
    have hsaves : savesSecret d found = true := by rw [savesSecret, htakeover]; rfl
    have hbackup : keptBackup env d found supportsWebsockets = _ := if_pos htakeover
    have hsecrets : keptSecrets env d found supportsWebsockets = _ := if_pos htakeover
    have hrebased : rebasedSecret env d found supportsWebsockets = _ := if_pos htakeover
    have hhash : (rebaseBackup env d found supportsWebsockets).previousAuthHash =
        (d.files .auth).map env.sha256Hex := by rw [rebaseBackup, htakeover]; rfl
    rw [hsaves, hbackup, hsecrets, hrebased] at hnext
    rw [hsaves] at hE
    rw [if_pos rfl, meets_bind, loadSecret, meets_bind, meets_get, meets_pure]
    cases hauth : previousAuthText (d.files .auth) with
    | some text =>
      rw [hauth] at hnext
      dsimp only
      rw [meets_bind]
      refine meets_write_failingAt rfl (fun rest hrest => ?_) fun hzero => hE rfl hzero _
      rw [meets_pure, meets_bind, keepPreviousAuth_later hlater, filledBackup_of_hash]
      · exact hnext rest hrest
      · rw [hhash, (previousAuthText_eq_some hauth).1]
        rintro ⟨⟩
    | none =>
      rw [hauth] at hnext
      dsimp only
      rw [meets_bind]
      refine meets_write_failingAt rfl (fun rest hrest => ?_) fun hzero => hE rfl hzero _
      rw [meets_pure, meets_bind, keepPreviousAuth_later hlater, filledBackup_of_hash fun _ => rfl]
      exact hnext rest hrest
  | false =>
    have hrebased : rebasedSecret env d found supportsWebsockets = none := if_neg (by simp [htakeover])
    rw [hrebased] at hnext
    rw [if_neg Bool.false_ne_true, meets_pure, meets_bind]
    cases hexisting : found.existingBackup with
    | none =>
      rw [keptBackup_first htakeover hexisting, keptSecrets, htakeover, savesSecret, htakeover,
        hexisting] at hnext
      rw [savesSecret, htakeover, hexisting] at hE
      rw [keepPreviousAuth, hexisting]
      simp only [Option.isNone_none, if_true]
      cases hauth : previousAuthText (d.files .auth) with
      | none =>
        rw [hauth] at hnext
        have href := secretRef_rebaseBackup env d supportsWebsockets hexisting
        have hsame : { rebaseBackup env d found supportsWebsockets with previousAuthSecretRef := none } =
            rebaseBackup env d found supportsWebsockets := by rw [← href]
        have hnext := hnext place rfl
        rw [Option.map_none, hsame] at hnext
        exact hnext
      | some text =>
        rw [hauth] at hE hnext
        dsimp only
        rw [meets_bind]
        exact meets_write_failingAt rfl (fun rest hrest => hnext rest hrest) fun hzero => hE rfl hzero _
    | some backup =>
      have hlater : found.existingBackup.isNone = false := by rw [hexisting]; rfl
      have hbackup : keptBackup env d found supportsWebsockets =
          filledBackup env d.secrets (rebaseBackup env d found supportsWebsockets) := by
        rw [keptBackup, if_neg (by simp [htakeover]), if_neg (by simp [hlater])]
      have hsecrets : keptSecrets env d found supportsWebsockets = d.secrets := by
        rw [keptSecrets, if_neg (by simp [htakeover]), hexisting]
      have hsaves : savesSecret d found = false := by rw [savesSecret, htakeover, hexisting]; rfl
      rw [hbackup, hsecrets, hsaves] at hnext
      rw [keepPreviousAuth_later hlater]
      exact hnext place rfl

/-- What the compensations make of the secrets. -/
theorem undone_keptSecrets (hf : FoundOn env d found) (supportsWebsockets : Bool) :
    putBackSecret (rebasedSecret env d found supportsWebsockets)
      (cleanedSecrets found.existingBackup.isNone
        (keptBackup env d found supportsWebsockets).previousAuthSecretRef
        (keptSecrets env d found supportsWebsockets)) = undoneSecrets d found := by
  rw [undoneSecrets]
  cases htakeover : found.externalTakeover with
  | true =>
    have hlater := hf.externalTakeover htakeover
    rw [keptSecrets, if_pos htakeover, rebasedSecret, if_pos htakeover, hlater, if_neg (by simp),
      cleanedSecrets_false]
    show Function.update (Function.update _ _ _) _ _ = _
    rw [Function.update_idem, Function.update_eq_self]
  | false =>
    rw [rebasedSecret, if_neg (by simp [htakeover]), putBackSecret, keptSecrets, if_neg (by simp [htakeover])]
    cases hexisting : found.existingBackup with
    | none =>
      rw [keptBackup_first htakeover hexisting]
      cases previousAuthText (d.files .auth) with
      | none => rfl
      | some text =>
        show Function.update (Function.update _ _ _) _ _ = _
        rw [Function.update_idem]
        rfl
    | some backup => rfl

/-! ## The writes -/

section
variable (env) (d) (found) (attach : LocalAttach)

/-- The backup of the attach while it is under way. -/
def markedBackup : ProfileBackup :=
  pendingBackup env attach found (keptBackup env d found attach.options.supportsWebsockets)

/-- The disk once the backup is written. -/
def markedDisk : Disk :=
  ({ d with secrets := keptSecrets env d found attach.options.supportsWebsockets }).set .backup
    (some (.text (env.writeBackup (markedBackup env d found attach))))

def catalogDisk : Disk := (markedDisk env d found attach).set .catalog (changedCatalog d found)

def configDisk : Disk :=
  (catalogDisk env d found attach).set .config (some (.text (env.printToml (Content.textOf (d.files .config))
    (managedConfig env attach found (keptBackup env d found attach.options.supportsWebsockets)))))

/-- The disk before the last write, which commits the backup. -/
def halfAttachedDisk : Disk :=
  (configDisk env d found attach).set .auth (some (.text (managedAuth env attach)))

/-- The disk that the compensations leave before the catalog is changed. -/
def undoneDisk : Disk := { d with secrets := undoneSecrets d found }

end

section
variable {attach : LocalAttach} {s : Disk} {place : Nat} {Q : Unit → World Disk → Prop}
  {E : LocalPoolError → World Disk → Prop} {C : World Disk → Prop}

theorem meets_replace_failingAt {file : File} {expected : Option Content} {content : String}
    (h : s.files file = expected)
    (hQ : ∀ rest, place = rest + 1 → Q () ⟨s.set file (some (.text content)), failingAt rest⟩)
    (hE : place = 0 → E ⟨.io, env.ioError file⟩ ⟨s, []⟩) :
    Meets (replaceIfUnchanged env file expected content ⟨s, failingAt place⟩) Q E C := by
  rw [replaceIfUnchanged_eq (w := ⟨s, failingAt place⟩) h]
  exact meets_write_failingAt rfl hQ hE

theorem meets_catalog_failingAt (h : s.files .catalog = d.files .catalog)
    (hQ : ∀ rest, place = rest + (changesCatalog d found).toNat →
      Q () ⟨s.set .catalog (changedCatalog d found), failingAt rest⟩)
    (hE : changesCatalog d found = true → place = 0 → E ⟨.io, env.ioError .catalog⟩ ⟨s, []⟩) :
    Meets (applyModelCatalogChange env (d.files .catalog) found.catalog found.hadManagedCatalog
      ⟨s, failingAt place⟩) Q E C := by
  cases hchanges : changesCatalog d found with
  | false =>
    have hQ := hQ place (by rw [hchanges]; rfl)
    have hsame : s.set .catalog (changedCatalog d found) = s :=
      Disk.set_self (h.trans (changedCatalog_of_unchanged hchanges).symm)
    rw [hsame] at hQ
    rw [changesCatalog, Bool.or_eq_false_iff] at hchanges
    have hcatalog : found.catalog = none := Option.not_isSome_iff_eq_none.mp (Bool.eq_false_iff.mp hchanges.1)
    rw [hcatalog]
    cases hmanaged : found.hadManagedCatalog with
    | false => exact hQ
    | true =>
      rw [hmanaged, Bool.true_and] at hchanges
      have hnone := Option.not_isSome_iff_eq_none.mp (Bool.eq_false_iff.mp hchanges.2)
      show Meets (removeIfUnchanged env .catalog (d.files .catalog) _) Q E C
      rw [removeIfUnchanged_eq (w := ⟨s, failingAt place⟩) h, if_pos hnone]
      exact hQ
  | true =>
    rw [hchanges] at hQ hE
    rw [changedCatalog] at hQ
    cases hcatalog : found.catalog with
    | some content =>
      rw [hcatalog] at hQ
      exact meets_replace_failingAt h hQ (hE rfl)
    | none =>
      rw [hcatalog] at hQ
      rw [changesCatalog, hcatalog, Option.isSome_none, Bool.false_or, Bool.and_eq_true] at hchanges
      rw [hchanges.1] at hQ ⊢
      show Meets (removeIfUnchanged env .catalog (d.files .catalog) _) Q E C
      rw [removeIfUnchanged_eq (w := ⟨s, failingAt place⟩) h,
        if_neg (Option.isSome_iff_ne_none.mp hchanges.2)]
      exact meets_write_failingAt rfl hQ (hE rfl)

/-- The compensation of the backup and the secret. -/
theorem leaves_undoBackup (attach : LocalAttach) (hf : FoundOn env d found)
    (hbackup : s.files .backup = some (.text (env.writeBackup (markedBackup env d found attach))))
    (hsecrets : s.secrets = keptSecrets env d found attach.options.supportsWebsockets) :
    (mergeRollbacks
      (rollbackBackup env found.existingBackup.isNone (env.writeBackup (markedBackup env d found attach))
        (d.files .backup) (markedBackup env d found attach).previousAuthSecretRef)
      (restoreSecretSnapshot env (rebasedSecret env d found attach.options.supportsWebsockets))).Leaves s
      { s.set .backup (d.files .backup) with secrets := undoneSecrets d found } := by
  rw [← undone_keptSecrets hf attach.options.supportsWebsockets, ← hsecrets]
  have hfile : (rollbackFile env .backup (env.writeBackup (markedBackup env d found attach))
      (d.files .backup)).Does s (s.set .backup (d.files .backup)) :=
    does_restoreSnapshot hbackup (readable_of_parseBackup hf.existingBackup)
  have hfirst := (hfile.bind (does_cleanup env found.existingBackup.isNone
    (markedBackup env d found attach).previousAuthSecretRef _)).leaves
  exact leaves_mergeRollbacks hfirst (does_restoreSecretSnapshot _ _).leaves

theorem commitAttach_failing (hf : FoundOn env d found) :
    Meets (commitAttach env attach d found (keptBackup env d found attach.options.supportsWebsockets)
        (rebasedSecret env d found attach.options.supportsWebsockets)
        ⟨{ d with secrets := keptSecrets env d found attach.options.supportsWebsockets }, failingAt place⟩)
      (fun _ _ => (changesCatalog d found).toNat + 3 < place)
      (fun _ w' => (place ≤ (changesCatalog d found).toNat ∧ w'.state = undoneDisk d found) ∨
        ((changesCatalog d found).toNat < place ∧ place < (changesCatalog d found).toNat + 3 ∧
          w'.state = (undoneDisk d found).set .catalog (undoneCatalog d found)) ∨
        (place = (changesCatalog d found).toNat + 3 ∧ w'.state = halfAttachedDisk env d found attach))
      (fun _ => False) := by
  rw [commitAttach, meets_bind, meets_orRollback]
  refine meets_replace_failingAt rfl (fun rest₁ hrest₁ => ?_) fun hzero => ?_
  rotate_left
  · -- The backup could not be written: only the secret is taken back.
    have hleaves : (mergeRollbacks
        (cleanupCreatedBackupSecret env found.existingBackup.isNone
          (markedBackup env d found attach).previousAuthSecretRef)
        (restoreSecretSnapshot env (rebasedSecret env d found attach.options.supportsWebsockets))).Leaves
        { d with secrets := keptSecrets env d found attach.options.supportsWebsockets }
        (undoneDisk d found) := by
      rw [undoneDisk, ← undone_keptSecrets hf attach.options.supportsWebsockets]
      exact leaves_mergeRollbacks (does_cleanup env _ _ _).leaves (does_restoreSecretSnapshot _ _).leaves
    exact hleaves.meets (.inl ⟨by omega, rfl⟩) fun _ => .inl ⟨by omega, rfl⟩
  have hundoBackup := leaves_undoBackup (s := markedDisk env d found attach) attach hf
    (by simp [markedDisk]) rfl
  rw [meets_bind, meets_orRollback]
  refine meets_catalog_failingAt (by simp) (fun rest₂ hrest₂ => ?_) fun hchanges hzero => ?_
  rotate_left
  · have hsame : { (markedDisk env d found attach).set .backup (d.files .backup) with
        secrets := undoneSecrets d found } = undoneDisk d found := by
      refine Disk.ext (fun file => ?_) fun _ => rfl
      cases file <;> simp [markedDisk, undoneDisk, Disk.set]
    rw [hsame] at hundoBackup
    have hplace : place ≤ (changesCatalog d found).toNat := by rw [hchanges, Bool.toNat_true]; omega
    exact hundoBackup.meets (.inl ⟨hplace, rfl⟩) fun _ => .inl ⟨hplace, rfl⟩
  have hcatalog : (catalogDisk env d found attach).files .catalog = changedCatalog d found := by
    simp [catalogDisk]
  -- From here on the compensation of the catalog comes first.
  have hundoCatalog {s : Disk} (hbackup : s.files .backup = (markedDisk env d found attach).files .backup)
      (hcatalog : s.files .catalog = changedCatalog d found)
      (hsecrets : s.secrets = (markedDisk env d found attach).secrets) :=
    leaves_mergeRollbacks (leaves_rollbackModelCatalogChange env hcatalog)
      (leaves_undoBackup (s := s.set .catalog (undoneCatalog d found)) attach hf
        (by simp [hbackup, markedDisk]) hsecrets)
  have hundone {s : Disk} (hconfig : s.files .config = d.files .config)
      (hauth : s.files .auth = d.files .auth) (haccount : s.files .accountBackup = d.files .accountBackup) :
      { (s.set .catalog (undoneCatalog d found)).set .backup (d.files .backup) with
        secrets := undoneSecrets d found } = (undoneDisk d found).set .catalog (undoneCatalog d found) := by
    refine Disk.ext (fun file => ?_) fun _ => rfl
    cases file <;> simp [undoneDisk, Disk.set, hconfig, hauth, haccount]
  rw [meets_bind, meets_orRollback]
  refine meets_replace_failingAt (by simp [markedDisk]) (fun rest₃ hrest₃ => ?_) fun hzero => ?_
  rotate_left
  · have hleaves := hundoCatalog (s := catalogDisk env d found attach) (by simp [catalogDisk]) hcatalog rfl
    rw [hundone (by simp [catalogDisk, markedDisk]) (by simp [catalogDisk, markedDisk])
      (by simp [catalogDisk, markedDisk])] at hleaves
    have hplace : (changesCatalog d found).toNat < place ∧ place < (changesCatalog d found).toNat + 3 := by
      omega
    exact hleaves.meets (.inr (.inl ⟨hplace.1, hplace.2, rfl⟩)) fun _ => .inr (.inl ⟨hplace.1, hplace.2, rfl⟩)
  rw [meets_bind, meets_orRollback]
  refine meets_replace_failingAt (by simp [markedDisk]) (fun rest₄ hrest₄ => ?_) fun hzero => ?_
  rotate_left
  · have hconfig : (rollbackFile env .config (env.printToml (Content.textOf (d.files .config))
          (managedConfig env attach found (keptBackup env d found attach.options.supportsWebsockets)))
          (d.files .config)).Leaves (configDisk env d found attach)
          ((configDisk env d found attach).set .config (d.files .config)) :=
      (does_restoreSnapshot (by simp [configDisk]) hf.config).leaves
    have hleaves := leaves_mergeRollbacks hconfig (hundoCatalog (by simp [configDisk, catalogDisk])
      (by simp [configDisk, hcatalog]) rfl)
    rw [hundone (by simp) (by simp [configDisk, catalogDisk, markedDisk])
      (by simp [configDisk, catalogDisk, markedDisk])] at hleaves
    have hplace : (changesCatalog d found).toNat < place ∧ place < (changesCatalog d found).toNat + 3 := by
      omega
    exact hleaves.meets (.inr (.inl ⟨hplace.1, hplace.2, rfl⟩)) fun _ => .inr (.inl ⟨hplace.1, hplace.2, rfl⟩)
  refine meets_replace_failingAt (by simp [markedDisk, markedBackup]) (fun _ _ => by omega) fun hzero => ?_
  exact .inr (.inr ⟨by omega, rfl⟩)

/-- The disks that a failed write leaves, by its place among the writes of an attach: the secret, the
backup, the catalog, the configuration, the authentication and the backup again. -/
inductive FailedAt (env : Env) (attach : LocalAttach) (d : Disk) (found : AttachInspection) (place : Nat) :
    Disk → Prop
  | secret : savesSecret d found = true → place = 0 → FailedAt env attach d found place d
  | early : (savesSecret d found).toNat ≤ place →
      place ≤ (savesSecret d found).toNat + (changesCatalog d found).toNat →
      FailedAt env attach d found place (undoneDisk d found)
  | late : (savesSecret d found).toNat + (changesCatalog d found).toNat < place →
      place < (savesSecret d found).toNat + (changesCatalog d found).toNat + 3 →
      FailedAt env attach d found place ((undoneDisk d found).set .catalog (undoneCatalog d found))
  | commit : place = (savesSecret d found).toNat + (changesCatalog d found).toNat + 3 →
      FailedAt env attach d found place (halfAttachedDisk env d found attach)

/-- An attach after its backup has been read. -/
def attachInspected (env : Env) (attach : LocalAttach) : ProfileOp Unit := do
  let disk ← Op.get
  let found ← .ofExcept (inspectAttach env attach disk)
  let (backup, rebasedSecret) ← rebaseSecret env disk found
    (rebaseBackup env disk found attach.options.supportsWebsockets)
  let backup ← keepPreviousAuth env disk found backup
  commitAttach env attach disk found backup rebasedSecret

theorem attachInspected_failing (env : Env) (attach : LocalAttach) (d : Disk) (place : Nat) :
    Meets (attachInspected env attach ⟨d, failingAt place⟩)
      (fun _ _ => ∃ found, inspectAttach env attach d = .ok found ∧
        (savesSecret d found).toNat + (changesCatalog d found).toNat + 3 < place)
      (fun _ w' => ((∀ found, inspectAttach env attach d ≠ .ok found) ∧ w'.state = d) ∨
        ∃ found, inspectAttach env attach d = .ok found ∧ FailedAt env attach d found place w'.state)
      (fun _ => False) := by
  rw [attachInspected, meets_bind, meets_get, meets_bind]
  cases hinspect : inspectAttach env attach d with
  | error e =>
    rw [meets_ofExcept_error]
    exact .inl ⟨fun _ => nofun, rfl⟩
  | ok found =>
    have hf := foundOn_of_inspect hinspect
    rw [meets_ofExcept_ok]
    refine secretStage_failing hf (commitAttach env attach d found) (fun hsaves hzero _ => .inr ⟨found, rfl, .secret hsaves hzero⟩)
      fun rest hrest => ?_
    refine (commitAttach_failing hf).mono (fun _ _ _ => ⟨found, rfl, by omega⟩)
      (fun _ w' hE => .inr ⟨found, rfl, ?_⟩)
      fun _ hC => hC
    rcases hE with ⟨hplace, hw⟩ | ⟨hplace, hplace', hw⟩ | ⟨hplace, hw⟩
    · exact hw ▸ .early (by omega) (by omega)
    · exact hw ▸ .late (by omega) (by omega)
    · exact hw ▸ .commit (by omega)

/-- A failed write is undone: nothing was written, or the compensation comes and can put back what there
was. -/
def Undone (d : Disk) (found : AttachInspection) (place : Nat) : Prop :=
  (savesSecret d found = true ∧ place = 0) ∨
    (place < (savesSecret d found).toNat + (changesCatalog d found).toNat + 3 ∧
      (found.existingBackup.isNone ∧ (previousAuthText (d.files .auth)).isSome →
        d.secrets backupSecretRef = none) ∧
      (place ≤ (savesSecret d found).toNat + (changesCatalog d found).toNat ∨
        changesCatalog d found = false ∨ Readable (d.files .catalog)))

theorem undoneDisk_eq_iff : undoneDisk d found = d ↔
    (found.existingBackup.isNone ∧ (previousAuthText (d.files .auth)).isSome →
      d.secrets backupSecretRef = none) := by
  rw [← undoneSecrets_eq_iff]
  exact ⟨fun heq => congrArg Disk.secrets heq, fun heq => Disk.ext (fun _ => rfl) fun r => congrFun heq r⟩

theorem undoneDisk_set_eq_iff : (undoneDisk d found).set .catalog (undoneCatalog d found) = d ↔
    (found.existingBackup.isNone ∧ (previousAuthText (d.files .auth)).isSome →
      d.secrets backupSecretRef = none) ∧
    (changesCatalog d found = false ∨ Readable (d.files .catalog)) := by
  rw [← undoneSecrets_eq_iff, ← undoneCatalog_eq_iff]
  constructor
  · intro heq
    refine ⟨congrArg Disk.secrets heq, ?_⟩
    have hfile := congrArg (fun disk => disk.files .catalog) heq
    simpa using hfile
  · rintro ⟨hsecrets, hcatalog⟩
    refine Disk.ext (fun file => ?_) fun r => congrFun hsecrets r
    cases file <;> simp [undoneDisk, hcatalog]

/-- A disk that already holds what is written loses nothing to a compensation. -/
theorem undone_of_halfAttached (attach : LocalAttach) (h : env.Lawful) (hf : FoundOn env d found)
    (heq : halfAttachedDisk env d found attach = d) : (undoneDisk d found).set .catalog (undoneCatalog d found) = d ∧
      undoneDisk d found = d := by
  have hfiles (file : File) : (halfAttachedDisk env d found attach).files file = d.files file := by rw [heq]
  have hbackup := hfiles .backup
  have hcatalog := hfiles .catalog
  simp only [halfAttachedDisk, configDisk, catalogDisk, markedDisk, Disk.files_set] at hbackup hcatalog
  have hexisting : found.existingBackup.isNone = false := by
    have hparse := hf.existingBackup
    rw [← hbackup] at hparse
    rw [← Except.ok.inj ((parseBackupSnapshot_writeBackup h _).symm.trans hparse)]
    rfl
  have hcond : found.existingBackup.isNone ∧ (previousAuthText (d.files .auth)).isSome →
      d.secrets backupSecretRef = none := by simp [hexisting]
  refine ⟨undoneDisk_set_eq_iff.mpr ⟨hcond, undoneCatalog_eq_iff.mp ?_⟩, undoneDisk_eq_iff.mpr hcond⟩
  rw [undoneCatalog]
  split
  · exact hcatalog
  · rfl

theorem FailedAt.eq_iff (h : env.Lawful) (hf : FoundOn env d found) (hs : FailedAt env attach d found place s) :
    s = d ↔ Undone d found place ∨ halfAttachedDisk env d found attach = d := by
  have hhalf := undone_of_halfAttached attach h hf
  cases hs with
  | secret hsaves hzero => exact iff_of_true rfl (.inl (.inl ⟨hsaves, hzero⟩))
  | early hplace hplace' =>
    constructor
    · exact fun heq => .inl (.inr ⟨by omega, undoneDisk_eq_iff.mp heq, .inl hplace'⟩)
    · rintro ((⟨hsaves, rfl⟩ | ⟨-, hcond, -⟩) | heq)
      · rw [hsaves] at hplace
        exact absurd hplace (by decide)
      · exact undoneDisk_eq_iff.mpr hcond
      · exact (hhalf heq).2
  | late hplace hplace' =>
    constructor
    · intro heq
      obtain ⟨hcond, hcatalog⟩ := undoneDisk_set_eq_iff.mp heq
      exact .inl (.inr ⟨hplace', hcond, .inr hcatalog⟩)
    · rintro ((⟨-, rfl⟩ | ⟨-, hcond, hcatalog⟩) | heq)
      · omega
      · exact undoneDisk_set_eq_iff.mpr ⟨hcond, hcatalog.resolve_left (by omega)⟩
      · exact (hhalf heq).1
  | commit hplace =>
    constructor
    · exact .inr
    · rintro ((⟨-, rfl⟩ | ⟨hplace', -⟩) | heq)
      · omega
      · omega
      · exact heq

theorem FailedAt.backup (hs : FailedAt env attach d found place s) :
    s.files .backup = d.files .backup ∨
      s.files .backup = some (.text (env.writeBackup (markedBackup env d found attach))) := by
  cases hs with
  | secret => exact .inl rfl
  | early => exact .inl rfl
  | late => exact .inl (by simp [undoneDisk])
  | commit => exact .inr (by simp [halfAttachedDisk, configDisk, catalogDisk, markedDisk])

end

end

/-! ## Old backups -/

/-- Reading the backup replaces it by `m`. -/
def Migrated (env : Env) (d : Disk) (m : ProfileBackup) : Prop :=
  ∃ backup, parseBackupSnapshot env (d.files .backup) = .ok (some backup) ∧
    (migrateLegacyManagedCatalogMetadata env d backup = some m ∨
      (migrateLegacyManagedCatalogMetadata env d backup = none ∧
        migrateMissingManagedCatalogForRestore env d backup = .ok (some m)))

/-- A backup that is read as it is, or none. -/
def BackupAccepted (env : Env) (d : Disk) : Prop :=
  ∃ existing, parseBackupSnapshot env (d.files .backup) = .ok existing ∧ ∀ backup ∈ existing,
    migrateLegacyManagedCatalogMetadata env d backup = none ∧
    migrateMissingManagedCatalogForRestore env d backup = .ok none ∧
    validMetadata env backup (d.files .catalog) = true

/-- The disk with a migrated backup. -/
def migratedDisk (env : Env) (d : Disk) (m : ProfileBackup) : Disk :=
  d.set .backup (some (.text (env.writeBackup m)))

section
variable {env : Env} {d s : Disk} {m : ProfileBackup} {place : Nat} {attach : LocalAttach}
  {found : AttachInspection}

variable {backup : ProfileBackup}

theorem migrateLegacy_eq_some (h : migrateLegacyManagedCatalogMetadata env d backup = some m) :
    (d.files .catalog).isSome ∧ backup.managedModelCatalogPath = none ∧ m.managedModelCatalogPath.isSome := by
  rw [migrateLegacyManagedCatalogMetadata] at h
  split at h
  case h_1 => cases h
  case h_2 content hcontent =>
    split at h
    case isTrue hlegacy =>
      obtain rfl := (Option.some.inj h).symm
      simp only [Bool.and_eq_true, Option.isNone_iff_eq_none] at hlegacy
      exact ⟨by rw [hcontent]; rfl, hlegacy.1.1.1.1, rfl⟩
    case isFalse => cases h

theorem migrateMissing_eq_some (h : migrateMissingManagedCatalogForRestore env d backup = .ok (some m)) :
    backup.attachPending = false ∧ m = { backup with restorePending := true } ∧
      backup.restorePending = false := by
  rw [migrateMissingManagedCatalogForRestore] at h
  split at h
  case isTrue => cases h
  case isFalse hdue =>
    split at h
    case h_1 => cases h
    case h_2 =>
      split at h
      case isTrue =>
        obtain rfl := (Option.some.inj (Except.ok.inj h)).symm
        simp only [Bool.or_eq_true, not_or, Bool.not_eq_true] at hdue
        exact ⟨hdue.1.1.2, rfl, hdue.1.1.1.2⟩
      case isFalse => cases h

theorem migrateMissing_of_catalog (h : (d.files .catalog).isSome) :
    migrateMissingManagedCatalogForRestore env d backup = .ok none :=
  if_pos (by simp [h])

/-- A migrated backup is another one, and so is the backup of an attach after it. -/
theorem ne_of_migrated (attach : LocalAttach) (h : env.Lawful) (hm : Migrated env d m)
    (hs : s.files .backup = (migratedDisk env d m).files .backup ∨
      ∃ found, FoundOn env (migratedDisk env d m) found ∧ s.files .backup =
        some (.text (env.writeBackup (markedBackup env (migratedDisk env d m) found attach)))) : s ≠ d := by
  obtain ⟨backup, hparse, hmigrated⟩ := hm
  -- A backup that is written where `backup` was read is `backup`.
  have hsame {b : ProfileBackup} (hwritten : d.files .backup = some (.text (env.writeBackup b))) : b = backup := by
    rw [hwritten, parseBackupSnapshot_writeBackup h] at hparse
    exact Option.some.inj (Except.ok.inj hparse)
  rintro rfl
  rcases hs with hs | ⟨found, hf, hs⟩
  · obtain rfl := hsame (b := m) (by rw [hs]; simp [migratedDisk])
    rcases hmigrated with hlegacy | ⟨-, hmissing⟩
    · obtain ⟨-, hnone, hsome⟩ := migrateLegacy_eq_some hlegacy
      rw [hnone] at hsome
      cases hsome
    · obtain ⟨-, hm, hrestore⟩ := migrateMissing_eq_some hmissing
      rw [hm] at hrestore
      cases hrestore
  · have hmarked := hsame hs
    rcases hmigrated with hlegacy | ⟨-, hmissing⟩
    · obtain ⟨-, hnone, hsome⟩ := migrateLegacy_eq_some hlegacy
      have hexisting : found.existingBackup = some m := by
        have hread := hf.existingBackup
        simp only [migratedDisk, Disk.files_set, if_true] at hread
        rw [parseBackupSnapshot_writeBackup h] at hread
        exact (Except.ok.inj hread).symm
      rw [← hmarked, markedBackup, pendingBackup] at hnone
      dsimp only at hnone
      rw [catalogPath_keptBackup, hexisting, Option.bind_some] at hnone
      split at hnone
      case isTrue => cases hnone
      case isFalse =>
        rw [hnone] at hsome
        cases hsome
    · obtain ⟨hpending, -⟩ := migrateMissing_eq_some hmissing
      rw [← hmarked] at hpending
      cases hpending

theorem localBackup_failing :
    Meets (localBackup env ⟨d, failingAt place⟩)
      (fun _ w' => (BackupAccepted env d ∧ w' = ⟨d, failingAt place⟩) ∨
        ∃ m rest, place = rest + 1 ∧ Migrated env d m ∧ w' = ⟨migratedDisk env d m, failingAt rest⟩)
      (fun _ w' => ((∃ m, Migrated env d m) → place = 0) ∧ ¬BackupAccepted env d ∧ w'.state = d ∨
        ∃ m rest, place = rest + 1 ∧ Migrated env d m ∧ w'.state = migratedDisk env d m)
      (fun _ => False) := by
  rw [localBackup, meets_bind, meets_get, meets_bind]
  cases hparse : parseBackupSnapshot env (d.files .backup) with
  | error e =>
    rw [meets_ofExcept_error]
    refine .inl ⟨?_, ?_, rfl⟩
    · rintro ⟨m, backup, hread, -⟩
      cases hparse.symm.trans hread
    · rintro ⟨existing, hread, -⟩
      cases hparse.symm.trans hread
  | ok existing =>
    rw [meets_ofExcept_ok]
    cases existing with
    | none =>
      have haccepted : BackupAccepted env d := ⟨none, hparse, fun _ hmem => by cases hmem⟩
      exact .inl ⟨haccepted, rfl⟩
    | some backup =>
      have hunique {b : ProfileBackup} (hread : parseBackupSnapshot env (d.files .backup) = .ok (some b)) :
          b = backup := Option.some.inj (Except.ok.inj (hread.symm.trans hparse))
      have haccepted (h : BackupAccepted env d) : migrateLegacyManagedCatalogMetadata env d backup = none ∧
          migrateMissingManagedCatalogForRestore env d backup = .ok none ∧
          validMetadata env backup (d.files .catalog) = true := by
        obtain ⟨existing, hread, hbackup⟩ := h
        obtain rfl := Except.ok.inj (hread.symm.trans hparse)
        exact hbackup backup rfl
      dsimp only
      rw [meets_bind]
      cases hlegacy : migrateLegacyManagedCatalogMetadata env d backup with
      | some m =>
        have hmigrated : Migrated env d m := ⟨backup, hparse, .inl hlegacy⟩
        rw [writeMigrated, meets_bind]
        refine meets_replace_failingAt rfl (fun rest hrest => ?_) fun hzero => ?_
        · rw [meets_pure, migrateMissing_of_catalog (migrateLegacy_eq_some hlegacy).1, meets_bind,
            meets_ofExcept_ok, meets_bind, writeMigrated, meets_pure]
          dsimp only
          split
          case isTrue => exact .inr ⟨m, rest, hrest, hmigrated, rfl⟩
          case isFalse => exact .inr ⟨m, rest, hrest, hmigrated, rfl⟩
        · refine .inl ⟨fun _ => hzero, fun h => ?_, rfl⟩
          cases hlegacy.symm.trans (haccepted h).1
      | none =>
        rw [writeMigrated, meets_pure, meets_bind]
        cases hmissing : migrateMissingManagedCatalogForRestore env d backup with
        | error e =>
          rw [meets_ofExcept_error]
          refine .inl ⟨?_, fun h => ?_, rfl⟩
          · rintro ⟨m, b, hread, hm⟩
            obtain rfl := hunique hread
            rcases hm with hm | ⟨-, hm⟩
            · cases hlegacy.symm.trans hm
            · cases hmissing.symm.trans hm
          · cases hmissing.symm.trans (haccepted h).2.1
        | ok migrated =>
          rw [meets_ofExcept_ok, meets_bind]
          cases migrated with
          | some m =>
            have hmigrated : Migrated env d m := ⟨backup, hparse, .inr ⟨hlegacy, hmissing⟩⟩
            rw [writeMigrated, meets_bind]
            refine meets_replace_failingAt rfl (fun rest hrest => ?_) fun hzero => ?_
            · rw [meets_pure]
              dsimp only
              split
              case isTrue => exact .inr ⟨m, rest, hrest, hmigrated, rfl⟩
              case isFalse => exact .inr ⟨m, rest, hrest, hmigrated, rfl⟩
            · refine .inl ⟨fun _ => hzero, fun h => ?_, rfl⟩
              cases hmissing.symm.trans (haccepted h).2.1
          | none =>
            rw [writeMigrated, meets_pure]
            dsimp only
            split
            case isTrue hvalid =>
              refine .inl ⟨⟨some backup, hparse, fun b hb => ?_⟩, rfl⟩
              obtain rfl := Option.some.inj hb
              exact ⟨hlegacy, hmissing, hvalid⟩
            case isFalse hvalid =>
              refine .inl ⟨?_, fun h => hvalid (haccepted h).2.2, rfl⟩
              rintro ⟨m, b, hread, hm⟩
              obtain rfl := hunique hread
              rcases hm with hm | ⟨-, hm⟩
              · cases hlegacy.symm.trans hm
              · cases hmissing.symm.trans hm

/-- The condition for a failed attach to leave the disk as it was: the failed write is undone, no old backup
was replaced before, and the disk was not waiting for its commit already. -/
def Compensated (env : Env) (attach : LocalAttach) (d : Disk) (place : Nat) : Prop :=
  (∀ gateway m, attach.normalize = .ok gateway → Migrated env d m → place = 0) ∧
    ∀ gateway found, attach.normalize = .ok gateway → BackupAccepted env d →
      inspectAttach env gateway d = .ok found →
      Undone d found place ∨ halfAttachedDisk env d found gateway = d

theorem not_accepted_of_migrated (hm : Migrated env d m) : ¬BackupAccepted env d := by
  rintro ⟨existing, hread, hbackup⟩
  obtain ⟨backup, hparse, hm⟩ := hm
  obtain rfl := Except.ok.inj (hread.symm.trans hparse)
  obtain ⟨hlegacy, hmissing, -⟩ := hbackup backup rfl
  rcases hm with hm | ⟨-, hm⟩
  · exact nomatch hlegacy.symm.trans hm
  · exact nomatch hmissing.symm.trans hm

theorem attachLocalLocked_failing (h : env.Lawful) (attach : LocalAttach) (d : Disk) (place : Nat) :
    Meets (attachLocalLocked env attach ⟨d, failingAt place⟩) (fun _ _ => True)
      (fun _ w' => w'.state = d ↔ Compensated env attach d place) (fun _ => False) := by
  show Meets ((Op.ofExcept attach.normalize >>= fun gateway =>
    localBackup env >>= fun _ => attachInspected env gateway : ProfileOp Unit) _) _ _ _
  rw [meets_bind]
  cases hnormalize : attach.normalize with
  | error e =>
    rw [meets_ofExcept_error]
    refine iff_of_true rfl ⟨fun gateway m hgateway => ?_, fun gateway found hgateway => ?_⟩
    · exact nomatch hnormalize.symm.trans hgateway
    · exact nomatch hnormalize.symm.trans hgateway
  | ok gateway =>
    have hunique {gateway' : LocalAttach} (hgateway : attach.normalize = .ok gateway') : gateway' = gateway :=
      Except.ok.inj (hgateway.symm.trans hnormalize)
    have hmigrated {m : ProfileBackup} {rest : Nat} (hplace : place = rest + 1) (hm : Migrated env d m) :
        ¬Compensated env attach d place := fun hcompensated => by
      have hzero := hcompensated.1 gateway m hnormalize hm
      omega
    rw [meets_ofExcept_ok]
    refine (localBackup_failing.mono (fun _ _ hQ => hQ) (fun _ w' hE => ?_) fun _ hC => hC).bind ?_
    · rcases hE with ⟨hzero, hrejected, hw⟩ | ⟨m, rest, hplace, hm, hw⟩
      · exact iff_of_true hw ⟨fun _ m _ hm => hzero ⟨m, hm⟩, fun _ _ _ haccepted => absurd haccepted hrejected⟩
      · exact iff_of_false (ne_of_migrated gateway h hm (.inl (by rw [hw]))) (hmigrated hplace hm)
    rintro - w₁ (⟨haccepted, rfl⟩ | ⟨m, rest, hplace, hm, rfl⟩)
    · -- No old backup: what the failed write leaves decides.
      refine (attachInspected_failing _ _ _ _).mono (fun _ _ _ => trivial) (fun _ w' hE => ?_) fun _ hC => hC
      have hdue (gateway' : LocalAttach) (m : ProfileBackup) (_ : attach.normalize = .ok gateway')
          (hm : Migrated env d m) : place = 0 := absurd haccepted (not_accepted_of_migrated hm)
      rcases hE with ⟨hnone, hw⟩ | ⟨found, hinspect, hs⟩
      · refine iff_of_true hw ⟨hdue, fun gateway' found hgateway _ hfound => ?_⟩
        obtain rfl := hunique hgateway
        exact absurd hfound (hnone found)
      · rw [hs.eq_iff h (foundOn_of_inspect hinspect)]
        constructor
        · refine fun hundone => ⟨hdue, fun gateway' found' hgateway _ hfound => ?_⟩
          obtain rfl := hunique hgateway
          obtain rfl := Except.ok.inj (hfound.symm.trans hinspect)
          exact hundone
        · exact fun hcompensated => hcompensated.2 gateway found hnormalize haccepted hinspect
    · refine (attachInspected_failing _ _ _ _).mono (fun _ _ _ => trivial) (fun _ w' hE => ?_) fun _ hC => hC
      refine iff_of_false ?_ (hmigrated hplace hm)
      rcases hE with ⟨-, hw⟩ | ⟨found, hinspect, hs⟩
      · exact ne_of_migrated gateway h hm (.inl (by rw [hw]))
      · refine ne_of_migrated gateway h hm (hs.backup.imp id fun hbackup => ?_)
        exact ⟨found, foundOn_of_inspect hinspect, hbackup⟩

theorem failed_attach_iff (h : env.Lawful) {e : LocalPoolError} {w : World Disk}
    (hrun : attachLocalLocked env attach ⟨d, failingAt place⟩ = (.error e, w)) :
    w.state = d ↔ Compensated env attach d place := by
  have hmeets := attachLocalLocked_failing h attach d place
  rw [hrun] at hmeets
  exact hmeets

theorem failed_attach_sample :
    (attachLocalLocked sampleEnv sampleAttach
        ⟨sampleDisk (some (.text "")) (some (.text "\x7b\x7d")), failingAt 1⟩).2.state =
      sampleDisk (some (.text "")) (some (.text "\x7b\x7d")) ↔
    Compensated sampleEnv sampleAttach (sampleDisk (some (.text "")) (some (.text "\x7b\x7d"))) 1 :=
  failed_attach_iff (e := ⟨.io, "No space left on device"⟩) sampleEnv_lawful rfl

/-- The write that commits the backup fails: the profile stays attached. -/
theorem failed_commit_stays : ∃ e w,
    attachLocalLocked sampleEnv sampleAttach
        ⟨sampleDisk (some (.text "")) (some (.text "\x7b\x7d")), failingAt 4⟩ = (.error e, w) ∧
      w.state ≠ sampleDisk (some (.text "")) (some (.text "\x7b\x7d")) := by
  have hmeets := attachInspected_failing sampleEnv sampleAttach
    (sampleDisk (some (.text "")) (some (.text "\x7b\x7d"))) 4
  have hfound {found : AttachInspection} (hinspect : inspectAttach sampleEnv sampleAttach
      (sampleDisk (some (.text "")) (some (.text "\x7b\x7d"))) = .ok found) : found = sampleFound :=
    (Except.ok.inj (show Except.ok sampleFound = .ok found from hinspect)).symm
  have hinspected : attachLocalLocked sampleEnv sampleAttach
      ⟨sampleDisk (some (.text "")) (some (.text "\x7b\x7d")), failingAt 4⟩ =
    attachInspected sampleEnv sampleAttach
      ⟨sampleDisk (some (.text "")) (some (.text "\x7b\x7d")), failingAt 4⟩ := rfl
  rw [hinspected]
  rcases hrun : attachInspected sampleEnv sampleAttach
    ⟨sampleDisk (some (.text "")) (some (.text "\x7b\x7d")), failingAt 4⟩ with ⟨value | e | _, w⟩ <;>
    rw [hrun] at hmeets
  · obtain ⟨found, hinspect, hplace⟩ := hmeets
    obtain rfl := hfound hinspect
    exact absurd hplace (by decide)
  · refine ⟨e, w, rfl, fun hsame => ?_⟩
    rcases hmeets with ⟨hnone, -⟩ | ⟨found, hinspect, hs⟩
    · exact hnone sampleFound rfl
    · obtain rfl := hfound hinspect
      rcases (hs.eq_iff sampleEnv_lawful (foundOn_of_inspect hinspect)).mp hsame with
        (⟨-, hplace⟩ | ⟨hplace, -⟩) | hhalf
      · exact nomatch hplace
      · exact absurd hplace (by decide)
      · exact nomatch congrArg (fun disk => (disk.files .backup).isSome) hhalf
  · exact hmeets.elim

end

end Zenith.Profiles
