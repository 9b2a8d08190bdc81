import Mathlib
import Zenith.Profiles.Backup

/-!
# The binding to the local gateway

Attaching a profile to the local gateway, restoring it and refreshing its managed model catalog, from
`profiles/codex/local.rs` and `refresh_managed_model_catalog`. An attach inspects the files
(`inspectAttach`), keeps the previous authentication in a secret (`keepPreviousAuth`) and then replaces the
files one by one, with a rollback for each write but the last (`commitAttach`).
-/

namespace Zenith.Profiles

open Zenith.Accounts Zenith.Faults Zenith.Text

structure BoundOAuthProfile where
  accountId : String
  tokens : TokenSet
  providerAccountId : String

structure LocalAttachOptions where
  boundOauth : Option BoundOAuthProfile := none
  catalogJson : Option String := none
  supportsWebsockets : Bool := true

/-- The arguments of an attach. -/
structure LocalAttach where
  keyId : String
  baseUrl : String
  localKey : String
  options : LocalAttachOptions := {}

def normalizeBoundOauth : Option BoundOAuthProfile → Except LocalPoolError (Option BoundOAuthProfile)
  | none => .ok none
  | some boundOauth =>
    let accountId := trim boundOauth.accountId
    let providerAccountId := trim boundOauth.providerAccountId
    if accountId = "" ∨ accountId.toList.any isControl ∨ providerAccountId = "" ∨
        boundOauth.tokens.refreshToken.isNone then
      .error ⟨.invalidState, "OAuth binding requires active refresh and account tokens"⟩
    else .ok (some { boundOauth with accountId, providerAccountId })

/-- The arguments as the attach uses them. -/
def LocalAttach.normalize (attach : LocalAttach) : Except LocalPoolError LocalAttach :=
  match normalizeBoundOauth attach.options.boundOauth with
  | .error e => .error e
  | .ok boundOauth =>
    let keyId := trim attach.keyId
    let localKey := trim attach.localKey
    let baseUrl := trimEndMatches attach.baseUrl '/'
    if keyId = "" ∨ localKey = "" ∨ baseUrl = "" then
      .error ⟨.invalidState, "profile credential ID, base URL, and credential are required"⟩
    else .ok { keyId, baseUrl, localKey, options := { attach.options with boundOauth } }

section
variable (env : Env)

def accountBackupForProfile (disk : Disk) : Bool := (disk.files .accountBackup).isSome

/-- What an attach finds before its first write. -/
structure AttachInspection where
  document : Document
  existingBackup : Option ProfileBackup
  externalTakeover : Bool
  hadManagedCatalog : Bool
  catalog : Option String
  managedModelReasoningEffort : Option String

/-- The checks of an attach that compare the files with the backup that is there. -/
def checkExistingBinding (disk : Disk) (document : Document) :
    Option ProfileBackup → Except LocalPoolError Unit
  | none => .ok ()
  | some backup =>
    if externalProviderTookOver env document backup then .ok ()
    else if !managedConfigMatches env document backup then .error profileRestoreBlocked
    else
      match managedAuthMatchesSnapshot env (disk.files .auth) backup with
      | .error e => .error e
      | .ok true => .ok ()
      | .ok false =>
        if previousAuthMatchesSnapshot env (disk.files .auth) backup then .ok ()
        else .error profileRestoreBlocked

def userCatalogPath (document : Document) : Option ProfileBackup → Option String
  | none => rootModelCatalogJson document
  | some backup =>
    if externalProviderTookOver env document backup then externalModelCatalog document backup
    else
      (if backup.managedModelCatalogPath.isSome then backup.previousModelCatalogJson else none).or
        (rootModelCatalogJson document)

/-- The managed catalog, where the attach comes with one. -/
def attachCatalog (attach : LocalAttach) (disk : Disk) (document : Document)
    (existingBackup : Option ProfileBackup) (hadManagedCatalog : Bool) :
    Except LocalPoolError (Option String) :=
  match attach.options.catalogJson with
  | none => .ok none
  | some content =>
    some <$> env.buildManagedModelCatalog (userCatalogPath env document existingBackup)
      (if hadManagedCatalog then disk.files .catalog else none) content

def inspectAttach (attach : LocalAttach) (disk : Disk) : Except LocalPoolError AttachInspection := do
  let config ← snapshotText env .config (disk.files .config)
  let _ ← snapshotText env .auth (disk.files .auth)
  let document ← parseConfig env (config.getD "")
  validateConfigShape document
  if accountBackupForProfile disk then
    .error ⟨.conflict, "ChatGPT profile is already attached to an OAuth account"⟩
  else
    let existingBackup ← parseBackupSnapshot env (disk.files .backup)
    let hadManagedCatalog := existingBackup.any fun backup => backup.managedModelCatalogPath.isSome
    if existingBackup.any fun backup => !validManagedModelCatalog env backup (disk.files .catalog) then
      .error profileRestoreBlocked
    else if attach.options.catalogJson.isSome && !hadManagedCatalog && (disk.files .catalog).isSome then
      .error ⟨.recoveryRequired, "managed ChatGPT model catalog exists without a profile backup"⟩
    else if existingBackup.isNone && documentHasProvider document then
      .error ⟨.recoveryRequired, "managed ChatGPT provider exists without a profile backup"⟩
    else do
      checkExistingBinding env disk document existingBackup
      let catalog ← attachCatalog env attach disk document existingBackup hadManagedCatalog
      return {
        document
        existingBackup
        externalTakeover := existingBackup.any fun backup => externalProviderTookOver env document backup
        hadManagedCatalog
        catalog
        managedModelReasoningEffort := reasoningEffortForAttach env.fromStr document catalog }

/-- The backup of a first attach. -/
def newBackup (disk : Disk) (document : Document) (supportsWebsockets : Bool) : ProfileBackup where
  version := 1
  previousModelProvider := rootModelProvider document
  previousModelCatalogJson := rootModelCatalogJson document
  previousModelReasoningEffort := rootModelReasoningEffort document
  previousAuthHash := (disk.files .auth).map env.sha256Hex
  previousAuthSecretRef := none
  managedKeyId := ""
  managedKeyHash := ""
  managedBaseUrl := ""
  boundOauthAccountId := none
  managedOauthAccessHash := none
  managedBearerInConfig := false
  managedSupportsWebsockets := some supportsWebsockets
  managedModelReasoningEffortCleared := false
  managedModelReasoningEffort := none
  managedModelCatalogPath := none
  managedModelCatalogHash := none
  managedModelCatalogPendingHash := none
  managedModelCatalogPendingRemove := false
  attachPending := false
  restorePending := false

/-- What the backup says of the profile before the attach, for the parts an attach takes over from the
document. -/
def rebaseBackup (disk : Disk) (found : AttachInspection) (supportsWebsockets : Bool) : ProfileBackup :=
  let document := found.document
  let createdBackup := found.existingBackup.isNone
  let backup := found.existingBackup.getD (newBackup env disk document supportsWebsockets)
  let backup :=
    if !createdBackup && backup.managedModelCatalogPath.isNone && backup.managedModelCatalogHash.isNone then
      { backup with previousModelCatalogJson := rootModelCatalogJson document }
    else backup
  let backup :=
    if createdBackup || found.externalTakeover || !backup.managedModelReasoningEffortCleared then
      { backup with previousModelReasoningEffort := rootModelReasoningEffort document }
    else backup
  let backup := { backup with
    managedModelReasoningEffortCleared := true
    managedModelReasoningEffort := found.managedModelReasoningEffort }
  if found.externalTakeover then
    { backup with
      previousModelProvider := rootModelProvider document
      previousModelCatalogJson := externalModelCatalog document backup
      previousAuthHash := (disk.files .auth).map env.sha256Hex }
  else backup

/-- The text of an authentication worth keeping. -/
def previousAuthText : Option Content → Option String
  | some (.text text) => if trim text ≠ "" then some text else none
  | _ => none

/-- A takeover replaces the authentication that the secret keeps. The answer has the backup with the
reference, and what the secret held before. -/
def rebaseSecret (disk : Disk) (found : AttachInspection) (backup : ProfileBackup) :
    ProfileOp (ProfileBackup × Option (String × Option String)) :=
  if found.externalTakeover then do
    let secretRef := backup.previousAuthSecretRef.getD backupSecretRef
    let previousSecret ← loadSecret secretRef
    match previousAuthText (disk.files .auth) with
    | some text =>
      saveSecret env secretRef text
      return ({ backup with previousAuthSecretRef := some secretRef }, some (secretRef, previousSecret))
    | none =>
      deleteSecret env secretRef
      return ({ backup with previousAuthSecretRef := none }, some (secretRef, previousSecret))
  else return (backup, none)

/-- A first attach keeps the previous authentication in the secret; a later one fills in the digest of
what the secret keeps. -/
def keepPreviousAuth (disk : Disk) (found : AttachInspection) (backup : ProfileBackup) :
    ProfileOp ProfileBackup :=
  if found.existingBackup.isNone then
    match previousAuthText (disk.files .auth) with
    | none => return backup
    | some text => do
      saveSecret env backupSecretRef text
      return { backup with previousAuthSecretRef := some backupSecretRef }
  else
    match backup.previousAuthHash, backup.previousAuthSecretRef with
    | none, some secretRef => do
      let content ← loadSecret secretRef
      return { backup with previousAuthHash := content.map (keyHash env) }
    | _, _ => return backup

/-- The digest of the access token, where the binding puts the tokens of an account in `auth.json`. -/
def projectedOauth (boundOauth : Option BoundOAuthProfile) : Option String :=
  (boundOauth.filter fun oauth => oauth.tokens.idToken.isSome).map fun oauth =>
    keyHash env oauth.tokens.accessToken

/-- The backup while the attach is under way. -/
def pendingBackup (attach : LocalAttach) (found : AttachInspection) (backup : ProfileBackup) :
    ProfileBackup :=
  let path := if found.catalog.isSome then some env.catalogPath else backup.managedModelCatalogPath
  { backup with
    managedKeyId := attach.keyId
    managedKeyHash := keyHash env attach.localKey
    managedBaseUrl := attach.baseUrl
    boundOauthAccountId := attach.options.boundOauth.map BoundOAuthProfile.accountId
    managedOauthAccessHash := projectedOauth env attach.options.boundOauth
    managedBearerInConfig := true
    managedSupportsWebsockets := some attach.options.supportsWebsockets
    managedModelCatalogPath := path
    managedModelCatalogPendingHash := found.catalog.map (keyHash env)
    managedModelCatalogPendingRemove := found.catalog.isNone && path.isSome
    attachPending := true
    restorePending := false }

/-- The backup of an attach that is complete. -/
def committedBackup (catalog : Option String) (backup : ProfileBackup) : ProfileBackup :=
  { backup with
    managedModelCatalogPath := catalog.map fun _ => env.catalogPath
    managedModelCatalogHash := catalog.map (keyHash env)
    managedModelCatalogPendingHash := none
    managedModelCatalogPendingRemove := false
    attachPending := false
    restorePending := false }

def managedConfig (attach : LocalAttach) (found : AttachInspection) (backup : ProfileBackup) : Document :=
  attachConfig found.document attach.baseUrl attach.localKey (found.catalog.map fun _ => env.catalogPath)
    backup.previousModelCatalogJson found.managedModelReasoningEffort attach.options.supportsWebsockets

/-- The text of a configuration, or of the empty one. -/
def Content.textOf : Option Content → String
  | some (.text content) => content
  | _ => ""

def managedAuth (attach : LocalAttach) : String :=
  match attach.options.boundOauth with
  | some oauth =>
    if (projectedOauth env (some oauth)).isSome then
      accountAuthContent env oauth.tokens oauth.providerAccountId
    else authContent attach.localKey
  | none => authContent attach.localKey

def cleanupCreatedBackupSecret (created : Bool) (secretRef : Option String) : ProfileOp Unit :=
  match created, secretRef with
  | true, some secretRef => deleteSecret env secretRef
  | _, _ => pure ()

def rollbackBackup (created : Bool) (attemptedContent : String) (previousSnapshot : Option Content)
    (secretRef : Option String) : ProfileOp Unit := do
  rollbackFile env .backup attemptedContent previousSnapshot
  cleanupCreatedBackupSecret env created secretRef

/-- The writes of an attach. The last one, which commits the backup, has no rollback. -/
def commitAttach (attach : LocalAttach) (disk : Disk) (found : AttachInspection) (backup : ProfileBackup)
    (rebasedSecret : Option (String × Option String)) : ProfileOp Unit := do
  let created := found.existingBackup.isNone
  let pending := pendingBackup env attach found backup
  let backupContent := env.writeBackup pending
  let managedConfig := env.printToml (Content.textOf (disk.files .config)) (managedConfig env attach found backup)
  let managedAuth := managedAuth env attach
  let undoBackup := mergeRollbacks
    (rollbackBackup env created backupContent (disk.files .backup) pending.previousAuthSecretRef)
    (restoreSecretSnapshot env rebasedSecret)
  let undoCatalog := mergeRollbacks
    (rollbackModelCatalogChange env found.catalog found.hadManagedCatalog (disk.files .catalog)) undoBackup
  orRollback (replaceIfUnchanged env .backup (disk.files .backup) backupContent)
    (mergeRollbacks (cleanupCreatedBackupSecret env created pending.previousAuthSecretRef)
      (restoreSecretSnapshot env rebasedSecret))
  orRollback (applyModelCatalogChange env (disk.files .catalog) found.catalog found.hadManagedCatalog)
    undoBackup
  orRollback (replaceIfUnchanged env .config (disk.files .config) managedConfig) undoCatalog
  orRollback (replaceIfUnchanged env .auth (disk.files .auth) managedAuth)
    (mergeRollbacks (rollbackFile env .config managedConfig (disk.files .config)) undoCatalog)
  replaceIfUnchanged env .backup (some (.text backupContent))
    (env.writeBackup (committedBackup env found.catalog pending))

def attachLocalLocked (attach : LocalAttach) : ProfileOp Unit := do
  let attach ← .ofExcept attach.normalize
  let _ ← localBackup env
  let disk ← Op.get
  let found ← .ofExcept (inspectAttach env attach disk)
  let (backup, rebasedSecret) ← rebaseSecret env disk found
    (rebaseBackup env disk found attach.options.supportsWebsockets)
  let backup ← keepPreviousAuth env disk found backup
  commitAttach env attach disk found backup rebasedSecret

/-! ## Restore -/

/-- What a restore finds before its first write. -/
structure RestoreInspection where
  backup : ProfileBackup
  document : Document
  previousAuth : Option String
  authMatchesPrevious : Bool

/-- The checks of a restore. There is nothing to restore without a backup. -/
def inspectRestore (disk : Disk) : Except LocalPoolError (Option RestoreInspection) := do
  match ← parseBackupSnapshot env (disk.files .backup) with
  | none => return none
  | some backup =>
    if !validManagedModelCatalog env backup (disk.files .catalog) then .error profileRestoreBlocked
    else
      let document ← readConfig env (disk.files .config)
      validateConfigShape document
      if !managedConfigMatches env document backup && !previousConfigMatches document backup then
        .error profileRestoreBlocked
      else
        let previousAuth := backup.previousAuthSecretRef.bind disk.secrets
        let backup := { backup with
          previousAuthHash := backup.previousAuthHash.or (previousAuth.map (keyHash env)) }
        if backup.previousAuthHash.any fun expected =>
            previousAuth.any fun content => keyHash env content ≠ expected then
          .error ⟨.recoveryRequired, "ChatGPT profile backup secret does not match its integrity hash"⟩
        else
          let authMatchesManaged ← managedAuthMatchesSnapshot env (disk.files .auth) backup
          let authMatchesPrevious := previousAuthMatchesSnapshot env (disk.files .auth) backup
          if !authMatchesManaged && !authMatchesPrevious then .error profileRestoreBlocked
          else if authMatchesManaged && backup.previousAuthSecretRef.isSome && previousAuth.isNone then
            .error ⟨.recoveryRequired, "ChatGPT profile backup secret is missing"⟩
          else return some { backup, document, previousAuth, authMatchesPrevious }

/-- `replace_if_unchanged`, unless the file has the content already. -/
def replaceIfDifferent (file : File) (original : Option Content) (content : String) : ProfileOp Unit :=
  if original = some (.text content) then pure () else replaceIfUnchanged env file original content

/-- The previous content of a file that a restore puts back: an absent file is removed. -/
def replaceWithSnapshot (file : File) (expectedCurrent : Option Content) : Option String → ProfileOp Unit
  | some content => replaceIfUnchanged env file expectedCurrent content
  | none => removeIfUnchanged env file expectedCurrent

def deletePreviousSecret : Option String → ProfileOp Unit
  | some secretRef => deleteSecret env secretRef
  | none => pure ()

/-- `auth.json` is left alone when it is the previous one already. -/
def restorePreviousAuth (current : Option Content) (found : RestoreInspection) : ProfileOp Unit :=
  if found.authMatchesPrevious then pure () else replaceWithSnapshot env .auth current found.previousAuth

def removeManagedCatalog (catalog : Option Content) : ProfileOp Unit :=
  if catalog.isSome then removeIfUnchanged env .catalog catalog else pure ()

/-- The document a restore writes. -/
def restoredDocument (found : RestoreInspection) : Document :=
  restoreLocalConfig found.document found.backup found.backup.previousModelCatalogJson
    (rootModelReasoningEffort found.document)

/-- The writes of a restore, after the backup says that it is under way. -/
def commitRestore (disk : Disk) (found : RestoreInspection) (backupContent : Option Content) :
    ProfileOp Unit := do
  replaceIfDifferent env .config (disk.files .config)
    (env.printToml (Content.textOf (disk.files .config)) (restoredDocument found))
  restorePreviousAuth env (disk.files .auth) found
  removeManagedCatalog env (disk.files .catalog)
  deletePreviousSecret env found.backup.previousAuthSecretRef
  removeIfUnchanged env .backup backupContent

def restoreLocalLocked : ProfileOp Unit := do
  let _ ← localBackup env
  let disk ← Op.get
  match ← .ofExcept (inspectRestore env disk) with
  | none => pure ()
  | some found =>
    if (← Op.get).files .backup ≠ disk.files .backup then Op.throw (profileChangedAt env .backup)
    else if found.backup.restorePending then commitRestore env disk found (disk.files .backup)
    else do
      let pending := env.writeBackup { found.backup with restorePending := true }
      replaceIfUnchanged env .backup (disk.files .backup) pending
      commitRestore env disk found (some (.text pending))

/-! ## The model catalog -/

/-- `reconcile_pending_catalog_state`: settles a pending catalog by what is on disk. -/
def reconcilePendingCatalogState (backupBytes : Option Content) (backup : ProfileBackup)
    (catalog : Option Content) : ProfileOp (Option Content × ProfileBackup) :=
  match backup.managedModelCatalogPendingHash with
  | none => return (backupBytes, backup)
  | some pendingHash =>
    let currentHash := catalog.map env.sha256Hex
    let settle (backup : ProfileBackup) : ProfileOp (Option Content × ProfileBackup) := do
      replaceIfUnchanged env .backup backupBytes (env.writeBackup backup)
      return (some (.text (env.writeBackup backup)), backup)
    if currentHash = some pendingHash then
      settle { backup with
        managedModelCatalogHash := some pendingHash
        managedModelCatalogPendingHash := none }
    else if currentHash = backup.managedModelCatalogHash ∨
        (backup.managedModelCatalogHash = none ∧ catalog = none) then
      settle { backup with managedModelCatalogPendingHash := none }
    else Op.throw profileRestoreBlocked

/-- The writes of a refresh that has a new catalog. -/
def commitRefresh (disk : Disk) (backupBytes : Option Content) (backup : ProfileBackup) (catalog : String) :
    ProfileOp Unit := do
  let pending := { backup with
    managedModelCatalogPendingHash := some (keyHash env catalog)
    managedModelCatalogPendingRemove := false }
  replaceIfUnchanged env .backup backupBytes (env.writeBackup pending)
  orRollback (applyModelCatalogChange env (disk.files .catalog) (some catalog) true)
    (rollbackFile env .backup (env.writeBackup pending) backupBytes)
  replaceIfUnchanged env .backup (some (.text (env.writeBackup pending)))
    (env.writeBackup { pending with
      managedModelCatalogHash := pending.managedModelCatalogPendingHash
      managedModelCatalogPendingHash := none })

def refreshManagedModelCatalog (catalogJson : String) : ProfileOp Bool := do
  let _ ← localBackup env
  let disk ← Op.get
  match ← .ofExcept (parseBackupSnapshot env (disk.files .backup)) with
  | none => return false
  | some backup =>
    if backup.attachPending || backup.restorePending then Op.throw profileRestoreBlocked
    else do
      let (backupBytes, backup) ←
        reconcilePendingCatalogState env (disk.files .backup) backup (disk.files .catalog)
      if !validManagedModelCatalog env backup (disk.files .catalog) then Op.throw profileRestoreBlocked
      else if backup.managedModelCatalogPath.isNone then return false
      else do
        let document ← .ofExcept (readConfig env (disk.files .config))
        if !managedConfigMatches env document backup then return false
        else if !(← .ofExcept (managedAuthMatchesSnapshot env (disk.files .auth) backup)) then return false
        else do
          let catalog ← .ofExcept (env.buildManagedModelCatalog backup.previousModelCatalogJson
            (disk.files .catalog) catalogJson)
          if disk.files .catalog = some (.text catalog) then return false
          else do
            commitRefresh env disk backupBytes backup catalog
            return true

end

end Zenith.Profiles
