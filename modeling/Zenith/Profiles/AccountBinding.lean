import Mathlib
import Zenith.Profiles.LocalBinding

/-!
# The binding to an account, and switching

Attaching a profile to an account and restoring it, from `profiles/codex/account.rs`, and the operations of
`profiles/codex.rs` that switch a profile between the gateway and an account. A switch restores the other
binding first. Where another provider has taken an account profile over there is nothing to restore: the
account backup is set aside, and put back when the attach fails.
-/

namespace Zenith.Profiles

open Zenith.Accounts Zenith.Faults Zenith.Text

structure AccountAttach where
  accountId : String
  tokens : TokenSet
  providerAccountId : String

structure ProfileBinding where
  profileDir : String
  credentialKind : ProfileCredentialKind
  credentialId : String
  boundOauthAccountId : Option String
  active : Bool

def bindingFromBackup (backup : AccountProfileBackup) (active : Bool) : ProfileBinding where
  profileDir := backup.profileDir
  credentialKind := .oauthAccount
  credentialId := backup.managedAccountId
  boundOauthAccountId := none
  active := active

/-! ## The configuration -/

def attachAccountConfig (document : Document) : Document :=
  (restoreConfig document none (rootModelCatalogJson document)).erase "openai_base_url"

def restoreAccountConfig (document : Document) (backup : AccountProfileBackup) : Document :=
  let restored := restoreConfig document backup.previousModelProvider (rootModelCatalogJson document)
  match backup.previousOpenaiBaseUrl with
  | some baseUrl => restored.insert "openai_base_url" (.ofStr baseUrl)
  | none => restored

def accountManagedConfigMatches (document : Document) : Bool :=
  (rootModelProvider document = none || rootModelProvider document = some "openai") &&
    !documentHasProvider document

section
variable (env : Env)

/-- `account_backup_secret_ref`. -/
def accountBackupSecretRef : String :=
  "profile:codex:" ++ keyHash env env.profileDir ++ ":previous_auth"

def parseAccountBackup (content : String) : Except LocalPoolError AccountProfileBackup :=
  match env.readAccountBackup content with
  | .error e =>
    .error ⟨.recoveryRequired, "ChatGPT account profile backup is invalid at " ++
      env.display .accountBackup ++ ": " ++ e⟩
  | .ok backup =>
    if backup.version ≠ 1 ∨ trim backup.profileDir = "" ∨ trim backup.managedAccountId = "" ∨
        !isHash backup.managedAccessHash then
      .error ⟨.recoveryRequired, "ChatGPT account profile backup has invalid metadata"⟩
    else .ok backup

def parseAccountBackupSnapshot (snapshot : Option Content) :
    Except LocalPoolError (Option AccountProfileBackup) :=
  match snapshotText env .accountBackup snapshot with
  | .error e => .error e
  | .ok none => .ok none
  | .ok (some content) => some <$> parseAccountBackup env content

/-! ## Attach -/

/-- The arguments as the attach uses them. -/
def AccountAttach.normalize (attach : AccountAttach) : Except LocalPoolError AccountAttach :=
  let accountId := trim attach.accountId
  let providerAccountId := trim attach.providerAccountId
  if accountId = "" ∨ accountId.toList.any isControl ∨ trim attach.tokens.accessToken = "" ∨
      providerAccountId = "" then
    .error ⟨.invalidState, "account profile credentials are invalid"⟩
  else .ok { attach with accountId, providerAccountId }

structure AccountInspection where
  document : Document
  existingBackup : Option AccountProfileBackup

def inspectAccountAttach (disk : Disk) : Except LocalPoolError AccountInspection := do
  let config ← snapshotText env .config (disk.files .config)
  let _ ← snapshotText env .auth (disk.files .auth)
  let document ← parseConfig env (config.getD "")
  validateConfigShape document
  let existingBackup ← parseAccountBackupSnapshot env (disk.files .accountBackup)
  match existingBackup with
  | none =>
    if documentHasProvider document then
      .error ⟨.conflict, "restore the local gateway profile before attaching an OAuth account"⟩
    else return { document, existingBackup }
  | some backup =>
    if backup.profileDir ≠ env.profileDir || !accountManagedConfigMatches document then
      .error profileRestoreBlocked
    else if !(← accountAuthMatchesSnapshot env (disk.files .auth) backup.managedAccessHash) then
      .error profileRestoreBlocked
    else return { document, existingBackup }

/-- What the backup says of the profile before the attach. -/
def previousAccountBackup (found : AccountInspection) : AccountProfileBackup :=
  let backup := found.existingBackup.getD {
    version := 1
    profileDir := env.profileDir
    previousModelProvider := rootModelProvider found.document
    previousOpenaiBaseUrl := rootOpenaiBaseUrl found.document
    previousAuthSecretRef := none
    managedAccountId := ""
    managedAccessHash := "" }
  { backup with
    previousOpenaiBaseUrl := backup.previousOpenaiBaseUrl.or (rootOpenaiBaseUrl found.document) }

def keepPreviousAccountAuth (disk : Disk) (found : AccountInspection) (backup : AccountProfileBackup) :
    ProfileOp AccountProfileBackup :=
  match found.existingBackup, previousAuthText (disk.files .auth) with
  | none, some text => do
    saveSecret env (accountBackupSecretRef env) text
    return { backup with previousAuthSecretRef := some (accountBackupSecretRef env) }
  | _, _ => return backup

def rollbackAccountBackup (created : Bool) (attemptedContent : String) (previousSnapshot : Option Content)
    (secretRef : Option String) : ProfileOp Unit := do
  rollbackFile env .accountBackup attemptedContent previousSnapshot
  cleanupCreatedBackupSecret env created secretRef

def commitAccountAttach (attach : AccountAttach) (disk : Disk) (found : AccountInspection)
    (backup : AccountProfileBackup) : ProfileOp ProfileBinding := do
  let created := found.existingBackup.isNone
  let backup := { backup with
    managedAccountId := attach.accountId
    managedAccessHash := keyHash env attach.tokens.accessToken }
  let backupContent := env.writeAccountBackup backup
  let managedConfig :=
    env.printToml (Content.textOf (disk.files .config)) (attachAccountConfig found.document)
  let managedAuth := accountAuthContent env attach.tokens attach.providerAccountId
  let undoBackup := rollbackAccountBackup env created backupContent (disk.files .accountBackup)
    backup.previousAuthSecretRef
  orRollback (replaceIfUnchanged env .accountBackup (disk.files .accountBackup) backupContent)
    (cleanupCreatedBackupSecret env created backup.previousAuthSecretRef)
  orRollback (replaceIfUnchanged env .config (disk.files .config) managedConfig) undoBackup
  orRollback (replaceIfUnchanged env .auth (disk.files .auth) managedAuth)
    (mergeRollbacks (rollbackFile env .config managedConfig (disk.files .config)) undoBackup)
  return bindingFromBackup backup true

def attachAccountLocked (attach : AccountAttach) : ProfileOp ProfileBinding := do
  let attach ← .ofExcept attach.normalize
  let disk ← Op.get
  let found ← .ofExcept (inspectAccountAttach env disk)
  let backup ← keepPreviousAccountAuth env disk found (previousAccountBackup env found)
  commitAccountAttach env attach disk found backup

/-! ## Restore -/

structure AccountRestoreInspection where
  backup : AccountProfileBackup
  document : Document
  previousAuth : Option String

def inspectAccountRestore (disk : Disk) : Except LocalPoolError (Option AccountRestoreInspection) := do
  match ← parseAccountBackupSnapshot env (disk.files .accountBackup) with
  | none => return none
  | some backup =>
    if backup.profileDir ≠ env.profileDir then
      .error ⟨.recoveryRequired, "ChatGPT account profile backup points to another profile"⟩
    else
      let document ← readConfig env (disk.files .config)
      if !accountManagedConfigMatches document then .error profileRestoreBlocked
      else if !(← accountAuthMatchesSnapshot env (disk.files .auth) backup.managedAccessHash) then
        .error profileRestoreBlocked
      else
        match backup.previousAuthSecretRef with
        | none => return some { backup, document, previousAuth := none }
        | some secretRef =>
          match disk.secrets secretRef with
          | some content => return some { backup, document, previousAuth := some content }
          | none =>
            .error ⟨.recoveryRequired, "ChatGPT account profile backup secret is missing"⟩

def commitAccountRestore (disk : Disk) (found : AccountRestoreInspection) : ProfileOp Unit := do
  let restoredConfig := env.printToml (Content.textOf (disk.files .config))
    (restoreAccountConfig found.document found.backup)
  let restoredAuth := found.previousAuth.map Content.text
  let undoConfig := rollbackFile env .config restoredConfig (disk.files .config)
  let undoAuth := restoreSnapshotIfUnchanged env .auth restoredAuth (disk.files .auth)
  replaceIfUnchanged env .config (disk.files .config) restoredConfig
  orRollback (replaceWithSnapshot env .auth (disk.files .auth) found.previousAuth) undoConfig
  orRollback (removeIfUnchanged env .accountBackup (disk.files .accountBackup))
    (mergeRollbacks undoAuth undoConfig)
  orRollback (deletePreviousSecret env found.backup.previousAuthSecretRef)
    (mergeRollbacks (restoreSnapshotIfUnchanged env .accountBackup none (disk.files .accountBackup))
      (mergeRollbacks undoAuth undoConfig))

def restoreAccountLocked : ProfileOp (Option ProfileBinding) := do
  let disk ← Op.get
  match ← .ofExcept (inspectAccountRestore env disk) with
  | none => return none
  | some found =>
    commitAccountRestore env disk found
    return some (bindingFromBackup found.backup true)

end

end Zenith.Profiles
