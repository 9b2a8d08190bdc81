import Mathlib
import Zenith.Accounts.TokenAuthority
import Zenith.Lib.Faults
import Zenith.Profiles.Document

/-!
# Files, secrets and guarded writes

What the profile code keeps outside the process, and the helpers of `profiles/codex/transaction.rs` it
writes with. Every write first reads the file again and gives up when it is not what was read before.

`Env` is what is not in the repository or is the same for one profile: the libraries that parse and
print, SHA-256, the paths, and the catalog builder, which reads other files.
-/

namespace Zenith.Profiles

open Zenith.Accounts Zenith.Faults Zenith.Text

/-- The bytes of a file, as `str::from_utf8` tells them apart. -/
inductive Content
  | text (text : String)
  /-- Bytes that are not UTF-8. -/
  | binary (bytes : List UInt8)
deriving DecidableEq

inductive File
  /-- `config.toml` of the profile. -/
  | config
  /-- `auth.json` of the profile. -/
  | auth
  /-- `codex-default.json`, the backup of the gateway binding. -/
  | backup
  /-- `codex-account-*.json` of the profile, the backup of the account binding. -/
  | accountBackup
  /-- `codex-model-catalog.json`. -/
  | catalog
deriving DecidableEq, Repr

structure Disk where
  files : File → Option Content
  secrets : String → Option String

namespace Disk

def set (disk : Disk) (file : File) (content : Option Content) : Disk :=
  { disk with files := Function.update disk.files file content }

def setSecret (disk : Disk) (secretRef : String) (value : Option String) : Disk :=
  { disk with secrets := Function.update disk.secrets secretRef value }

@[simp] theorem files_set (disk : Disk) (file : File) (content : Option Content) (other : File) :
    (disk.set file content).files other = if other = file then content else disk.files other :=
  Function.update_apply ..

@[simp] theorem secrets_set (disk : Disk) (file : File) (content : Option Content) :
    (disk.set file content).secrets = disk.secrets := rfl

@[simp] theorem files_setSecret (disk : Disk) (secretRef : String) (value : Option String) :
    (disk.setSecret secretRef value).files = disk.files := rfl

@[simp] theorem secrets_setSecret (disk : Disk) (secretRef : String) (value : Option String)
    (other : String) : (disk.setSecret secretRef value).secrets other =
      if other = secretRef then value else disk.secrets other :=
  Function.update_apply ..

theorem set_self {disk : Disk} {file : File} {content : Option Content}
    (h : disk.files file = content) : disk.set file content = disk := by
  rw [set, ← h, Function.update_eq_self]

theorem setSecret_self {disk : Disk} {secretRef : String} {value : Option String}
    (h : disk.secrets secretRef = value) : disk.setSecret secretRef value = disk := by
  rw [setSecret, ← h, Function.update_eq_self]

@[ext] theorem ext {disk disk' : Disk} (hfiles : ∀ file, disk.files file = disk'.files file)
    (hsecrets : ∀ secretRef, disk.secrets secretRef = disk'.secrets secretRef) : disk = disk' := by
  obtain ⟨files, secrets⟩ := disk
  obtain ⟨files', secrets'⟩ := disk'
  obtain rfl : files = files' := funext hfiles
  obtain rfl : secrets = secrets' := funext hsecrets
  rfl

end Disk

/-- `portable_path_value`. -/
def portablePathValue (value : String) : String :=
  match stripPrefix? value "\\\\?\\UNC\\" with
  | some rest => "\\\\" ++ rest
  | none => (stripPrefix? value "\\\\?\\").getD value

/-- `ProfileBackup`. -/
structure ProfileBackup where
  version : Nat
  previousModelProvider : Option String
  previousModelCatalogJson : Option String
  previousModelReasoningEffort : Option String
  previousAuthHash : Option String
  previousAuthSecretRef : Option String
  managedKeyId : String
  managedKeyHash : String
  managedBaseUrl : String
  boundOauthAccountId : Option String
  managedOauthAccessHash : Option String
  managedBearerInConfig : Bool
  managedSupportsWebsockets : Option Bool
  managedModelReasoningEffortCleared : Bool
  managedModelReasoningEffort : Option String
  managedModelCatalogPath : Option String
  managedModelCatalogHash : Option String
  managedModelCatalogPendingHash : Option String
  managedModelCatalogPendingRemove : Bool
  attachPending : Bool
  restorePending : Bool
deriving DecidableEq

/-- `AccountProfileBackup`. -/
structure AccountProfileBackup where
  version : Nat
  profileDir : String
  previousModelProvider : Option String
  previousOpenaiBaseUrl : Option String
  previousAuthSecretRef : Option String
  managedAccountId : String
  managedAccessHash : String
deriving DecidableEq

structure Env where
  /-- `hex::encode(Sha256::digest(..))`. -/
  sha256Hex : Content → String
  /-- `content.parse::<DocumentMut>()`. -/
  parseToml : String → Except String Document
  /-- `to_string` of a document that was parsed from the first text and edited. -/
  printToml : String → Document → String
  /-- `serde_json::from_str::<Value>`. -/
  fromStr : String → Option Json
  /-- `serde_json::to_string_pretty`. -/
  toStringPretty : Json → String
  readBackup : String → Except String ProfileBackup
  writeBackup : ProfileBackup → String
  readAccountBackup : String → Except String AccountProfileBackup
  writeAccountBackup : AccountProfileBackup → String
  /-- The time `account_auth_content` writes. -/
  lastRefresh : TokenSet → String
  /-- `catalog::build_managed_model_catalog` in the profile's directory. -/
  buildManagedModelCatalog :
    Option String → Option Content → String → Except LocalPoolError String
  /-- `is_relay_managed_model_catalog`. -/
  isRelayManagedModelCatalog : Content → Bool
  /-- `configured_catalog_matches_path` for the managed catalog. -/
  configuredCatalogMatchesPath : String → Bool
  /-- The managed catalog, as `portable_path_string` gives it. -/
  catalogPath : String
  /-- The canonical profile directory. -/
  profileDir : String
  /-- `path.display()`. -/
  display : File → String
  /-- The texts of the errors of the system: bytes that are not UTF-8, a write that failed. -/
  utf8Error : List UInt8 → String
  ioError : File → String
  secretError : LocalPoolError

/-- What the program relies on in its libraries: a digest has 64 digits, what was printed reads back, and
the path of the catalog, which was made portable, stays so. -/
structure Env.Lawful (env : Env) : Prop where
  length_sha256Hex : ∀ content, (env.sha256Hex content).utf8ByteSize = 64
  parse_print : ∀ source document, env.parseToml (env.printToml source document) = .ok document
  read_write : ∀ backup, env.readBackup (env.writeBackup backup) = .ok backup
  read_writeAccount : ∀ backup, env.readAccountBackup (env.writeAccountBackup backup) = .ok backup
  portable_catalogPath : portablePathValue env.catalogPath = env.catalogPath

/-- The operations of the profile code. -/
abbrev ProfileOp := Op Disk LocalPoolError

section
variable (env : Env)

def keyHash (value : String) : String := env.sha256Hex (.text value)

def profileRestoreBlocked : LocalPoolError :=
  ⟨.profileRestoreBlocked, "ChatGPT profile changed after attach; restore was not applied"⟩

def profileChangedAt (file : File) : LocalPoolError :=
  ⟨.profileRestoreBlocked, "ChatGPT changed " ++ env.display file ++
    " while Zenith Relay was updating the profile; no replacement was applied"⟩

def snapshotText (file : File) : Option Content → Except LocalPoolError (Option String)
  | none => .ok none
  | some (.text text) => .ok (some text)
  | some (.binary bytes) =>
    .error ⟨.io, env.display file ++ " is not valid UTF-8: " ++ env.utf8Error bytes⟩

def replaceIfUnchanged (file : File) (expected : Option Content) (content : String) : ProfileOp Unit := do
  let disk ← Op.get
  if disk.files file ≠ expected then Op.throw (profileChangedAt env file)
  else Op.write (·.set file (some (.text content))) ⟨.io, env.ioError file⟩

def removeIfUnchanged (file : File) (expected : Option Content) : ProfileOp Unit := do
  let disk ← Op.get
  if disk.files file ≠ expected then Op.throw (profileChangedAt env file)
  else if expected = none then pure ()
  else Op.write (·.set file none) ⟨.io, env.ioError file⟩

def restoreSnapshotIfUnchanged (file : File) (expectedCurrent previous : Option Content) :
    ProfileOp Unit :=
  match snapshotText env file previous with
  | .error e => Op.throw e
  | .ok (some content) => replaceIfUnchanged env file expectedCurrent content
  | .ok none => removeIfUnchanged env file expectedCurrent

def rollbackFile (file : File) (expectedContent : String) (previous : Option Content) : ProfileOp Unit :=
  restoreSnapshotIfUnchanged env file (some (.text expectedContent)) previous

def mergeErrors : Except LocalPoolError Unit → Except LocalPoolError Unit → Except LocalPoolError Unit
  | .ok (), second => second
  | .error first, .ok () => .error first
  | .error first, .error second =>
    .error ⟨.recoveryRequired, first.message ++ "; " ++ second.message⟩

/-- `merge_rollbacks`: both are run. -/
def mergeRollbacks (first second : ProfileOp Unit) : ProfileOp Unit := do
  let first ← first.attempt
  let second ← second.attempt
  .ofExcept (mergeErrors first second)

def withRollback (error : LocalPoolError) : Except LocalPoolError Unit → LocalPoolError
  | .ok () => error
  | .error rollbackError =>
    ⟨.recoveryRequired, error.message ++ "; profile rollback failed: " ++ rollbackError.message⟩

/-- `if let Err(error) = op { return Err(with_rollback(error, rollback)) }`. -/
def orRollback (op rollback : ProfileOp Unit) : ProfileOp Unit := do
  match ← op.attempt with
  | .ok () => pure ()
  | .error e => Op.throw (withRollback e (← rollback.attempt))

/-! ## Secrets -/

/-- `BACKUP_SECRET_REF`. -/
def backupSecretRef : String := "profile:codex:default:previous_auth"

def saveSecret (secretRef value : String) : ProfileOp Unit :=
  Op.write (·.setSecret secretRef (some value)) env.secretError

def loadSecret (secretRef : String) : ProfileOp (Option String) := do
  return (← Op.get).secrets secretRef

def deleteSecret (secretRef : String) : ProfileOp Unit :=
  Op.write (·.setSecret secretRef none) env.secretError

def restoreSecretSnapshot : Option (String × Option String) → ProfileOp Unit
  | none => pure ()
  | some (secretRef, some value) => saveSecret env secretRef value
  | some (secretRef, none) => deleteSecret env secretRef

end

/-! ## The rules of the guarded writes

Each is about a file that is as it was read, so that the write is made. -/

section
variable {env : Env} {w : World Disk} {A : Outcome → Prop} {Q : Unit → World Disk → Prop}
  {E : LocalPoolError → World Disk → Prop} {C : World Disk → Prop} {file : File}
  {expected : Option Content}

@[simp] theorem meets_ofExcept_ok {α : Type} {Q : α → World Disk → Prop} (value : α) :
    Meets ((Op.ofExcept (.ok value) : ProfileOp α) w) Q E C ↔ Q value w := Iff.rfl

@[simp] theorem meets_ofExcept_error {α : Type} {Q : α → World Disk → Prop} (e : LocalPoolError) :
    Meets ((Op.ofExcept (.error e) : ProfileOp α) w) Q E C ↔ E e w := Iff.rfl

@[simp] theorem meets_orRollback (op rollback : ProfileOp Unit) :
    Meets (orRollback op rollback w) Q E C ↔
      Meets (op w) Q
        (fun e w => Meets (rollback w) (fun _ w => E (withRollback e (.ok ())) w)
          (fun e' w => E (withRollback e (.error e')) w) C) C := by
  rw [orRollback]
  simp only [meets_bind, meets_attempt, meets_throw]
  rfl

theorem replaceIfUnchanged_eq (h : w.state.files file = expected) (content : String) :
    replaceIfUnchanged env file expected content w =
      Op.write (·.set file (some (.text content))) ⟨.io, env.ioError file⟩ w := by
  show (if w.state.files file ≠ expected then Op.throw _ else _) w = _
  rw [if_neg (not_not.mpr h)]

theorem removeIfUnchanged_eq (h : w.state.files file = expected) :
    removeIfUnchanged env file expected w =
      if expected = none then (.ok (), w) else Op.write (·.set file none) ⟨.io, env.ioError file⟩ w := by
  show (if w.state.files file ≠ expected then Op.throw _ else _) w = _
  rw [if_neg (not_not.mpr h)]
  split <;> rfl

theorem meets_replaceIfUnchanged (hfile : w.state.files file = expected) (ho : Within A w.outcomes)
    {content : String}
    (hQ : ∀ outcomes, Within A outcomes → Q () ⟨w.state.set file (some (.text content)), outcomes⟩)
    (hE : A .failed → ∀ outcomes, Within A outcomes → E ⟨.io, env.ioError file⟩ ⟨w.state, outcomes⟩)
    (hC : A .crashed → ∀ outcomes, Within A outcomes → C ⟨w.state, outcomes⟩) :
    Meets (replaceIfUnchanged env file expected content w) Q E C := by
  rw [replaceIfUnchanged_eq hfile]
  exact meets_write ho hQ hE hC

theorem meets_removeIfUnchanged (hfile : w.state.files file = expected) (ho : Within A w.outcomes)
    (hQ : ∀ outcomes, Within A outcomes → Q () ⟨w.state.set file none, outcomes⟩)
    (hE : A .failed → ∀ outcomes, Within A outcomes → E ⟨.io, env.ioError file⟩ ⟨w.state, outcomes⟩)
    (hC : A .crashed → ∀ outcomes, Within A outcomes → C ⟨w.state, outcomes⟩) :
    Meets (removeIfUnchanged env file expected w) Q E C := by
  rw [removeIfUnchanged_eq hfile]
  split
  case isTrue hnone =>
    have hsame : w.state.set file none = w.state := Disk.set_self (hfile.trans hnone)
    have hQ := hQ w.outcomes ho
    rwa [hsame] at hQ
  case isFalse => exact meets_write ho hQ hE hC

theorem meets_saveSecret (ho : Within A w.outcomes) {secretRef value : String}
    (hQ : ∀ outcomes, Within A outcomes → Q () ⟨w.state.setSecret secretRef (some value), outcomes⟩)
    (hE : A .failed → ∀ outcomes, Within A outcomes → E env.secretError ⟨w.state, outcomes⟩)
    (hC : A .crashed → ∀ outcomes, Within A outcomes → C ⟨w.state, outcomes⟩) :
    Meets (saveSecret env secretRef value w) Q E C := meets_write ho hQ hE hC

theorem meets_deleteSecret (ho : Within A w.outcomes) {secretRef : String}
    (hQ : ∀ outcomes, Within A outcomes → Q () ⟨w.state.setSecret secretRef none, outcomes⟩)
    (hE : A .failed → ∀ outcomes, Within A outcomes → E env.secretError ⟨w.state, outcomes⟩)
    (hC : A .crashed → ∀ outcomes, Within A outcomes → C ⟨w.state, outcomes⟩) :
    Meets (deleteSecret env secretRef w) Q E C := meets_write ho hQ hE hC

end

end Zenith.Profiles
