import Mathlib
import Zenith.Profiles.Disk

/-!
# The gateway backup and what it recognises

The checks of `profiles/codex/config.rs` and `profiles/codex/catalog_state.rs` that compare the files of a
profile with its backup: whether the configuration and the authentication are the managed ones or the
previous ones, and whether the managed catalog is one that the backup knows. `localBackup` reads the
backup and migrates old forms of it.
-/

namespace Zenith.Profiles

open Zenith.Faults Zenith.Text

section
variable (env : Env)

def parseConfig (content : String) : Except LocalPoolError Document :=
  match env.parseToml content with
  | .ok document => .ok document
  | .error e => .error ⟨.recoveryRequired, "ChatGPT config is not valid TOML: " ++ e⟩

/-- The configuration of a profile: an absent file is an empty document. -/
def readConfig (config : Option Content) : Except LocalPoolError Document :=
  match snapshotText env .config config with
  | .error e => .error e
  | .ok text => parseConfig env (text.getD "")

/-- What the program calls `hash.len() == 64`. -/
def isHash (hash : String) : Bool := hash.utf8ByteSize = 64

/-! ## The configuration -/

def externalModelCatalog (document : Document) (backup : ProfileBackup) : Option String :=
  if (rootModelCatalogJson document).map portablePathValue =
      backup.managedModelCatalogPath.map portablePathValue then
    backup.previousModelCatalogJson
  else rootModelCatalogJson document

def managedProviderMatches (document : Document) (backup : ProfileBackup) : Bool :=
  (((modelProviders document).bind (·.lookup providerId)).bind SubItem.asTable).any fun provider =>
    let str (key : String) : Option String := (provider.lookup key).bind TomlValue.asStr
    let bool (key : String) : Option Bool := (provider.lookup key).bind TomlValue.asBool
    str "name" = some "Zenith Relay Local" &&
      ((str "base_url").any fun baseUrl => trimEndMatches baseUrl '/' = backup.managedBaseUrl) &&
      str "wire_api" = some "responses" &&
      bool "requires_openai_auth" = some true &&
      (!backup.managedBearerInConfig ||
        (str "experimental_bearer_token").any fun token =>
          keyHash env (trim token) = backup.managedKeyHash) &&
      backup.managedSupportsWebsockets.all fun expected => bool "supports_websockets" = some expected

def managedConfigMatches (document : Document) (backup : ProfileBackup) : Bool :=
  rootModelProvider document = some providerId &&
    (backup.managedModelCatalogPath.isNone ||
      (rootModelCatalogJson document).map portablePathValue =
        backup.managedModelCatalogPath.map portablePathValue) &&
    managedProviderMatches env document backup

def previousConfigMatches (document : Document) (backup : ProfileBackup) : Bool :=
  rootModelProvider document = backup.previousModelProvider &&
    rootModelCatalogJson document = backup.previousModelCatalogJson

def externalProviderTookOver (document : Document) (backup : ProfileBackup) : Bool :=
  ((rootModelProvider document).any fun provider => provider ≠ providerId) &&
    managedProviderMatches env document backup

def restoreLocalConfig (document : Document) (backup : ProfileBackup)
    (previousModelCatalog currentModelReasoningEffort : Option String) : Document :=
  let document := restoreConfig document backup.previousModelProvider previousModelCatalog
  if backup.managedModelReasoningEffortCleared then
    restoreRootString document "model_reasoning_effort"
      (if currentModelReasoningEffort = backup.managedModelReasoningEffort then
        backup.previousModelReasoningEffort
      else currentModelReasoningEffort.or backup.previousModelReasoningEffort)
  else document

/-! ## The authentication -/

/-- `escape_json_string`. -/
def escapeJsonString (value : String) : String :=
  String.ofList (value.toList.flatMap fun c =>
    if c = '\\' then ['\\', '\\'] else if c = '"' then ['\\', '"']
    else if c = '\n' then ['\\', 'n'] else if c = '\r' then ['\\', 'r'] else [c])

def authContent (localKey : String) : String :=
  "\x7b\n  \"OPENAI_API_KEY\": \"" ++ escapeJsonString localKey ++
    "\",\n  \"auth_mode\": \"apikey\"\n\x7d\n"

def accountAuthContent (tokens : Accounts.TokenSet) (providerAccountId : String) : String :=
  env.toStringPretty (.ofFields
    [("OPENAI_API_KEY", .null), ("last_refresh", .string (env.lastRefresh tokens)),
      ("tokens", .ofFields ([("access_token", .string tokens.accessToken),
        ("account_id", .string providerAccountId),
        ("refresh_token", .string (tokens.refreshToken.getD ""))] ++
        tokens.idToken.toList.map fun idToken => ("id_token", .string idToken)))]) ++ "\n"

inductive ProfileCredentialKind
  | oauthAccount
  | apiKey
  | localGateway
deriving DecidableEq, Repr

def authCredentialKind (value : Json) : Option ProfileCredentialKind :=
  match (value.get "auth_mode").bind Json.asStr with
  | some "chatgpt" => some .oauthAccount
  | some "apikey" => some .apiKey
  | some _ => none
  | none =>
    if ((value.get "OPENAI_API_KEY").bind Json.asStr).isSome then some .apiKey
    else if ((value.get "tokens").bind Json.asObject).isSome then some .oauthAccount
    else none

/-- A file that reads as JSON with a property. Bytes that are not UTF-8 are an error. -/
def snapshotMatches (snapshot : Option Content) (p : Json → Bool) : Except LocalPoolError Bool :=
  match snapshotText env .auth snapshot with
  | .error e => .error e
  | .ok text => .ok ((text.bind env.fromStr).any p)

def authMatchesSnapshot (snapshot : Option Content) (expectedHash : String) :
    Except LocalPoolError Bool :=
  snapshotMatches env snapshot fun value =>
    (((value.get "OPENAI_API_KEY").bind Json.asStr).any fun key => keyHash env (trim key) = expectedHash) &&
      (value.get "auth_mode").bind Json.asStr = some "apikey"

def accountAuthMatchesSnapshot (snapshot : Option Content) (expectedHash : String) :
    Except LocalPoolError Bool :=
  snapshotMatches env snapshot fun value =>
    authCredentialKind value = some .oauthAccount &&
      (((value.get "tokens").bind (·.get "access_token")).bind Json.asStr).any fun token =>
        keyHash env (trim token) = expectedHash

def managedAuthMatchesSnapshot (snapshot : Option Content) (backup : ProfileBackup) :
    Except LocalPoolError Bool :=
  match backup.boundOauthAccountId, backup.managedOauthAccessHash with
  | some accountId, some accessHash =>
    if trim accountId ≠ "" ∧ isHash accessHash then accountAuthMatchesSnapshot env snapshot accessHash
    else .ok false
  | some accountId, none =>
    if trim accountId ≠ "" then authMatchesSnapshot env snapshot backup.managedKeyHash else .ok false
  | none, none => authMatchesSnapshot env snapshot backup.managedKeyHash
  | none, some _ => .ok false

def previousAuthMatchesSnapshot (snapshot : Option Content) (backup : ProfileBackup) : Bool :=
  match backup.previousAuthHash with
  | some expectedHash => snapshot.any fun content => env.sha256Hex content = expectedHash
  | none => backup.previousAuthSecretRef.isNone && snapshot.isNone

/-! ## The managed catalog -/

def validManagedModelCatalog (backup : ProfileBackup) (content : Option Content) : Bool :=
  if (backup.managedModelCatalogHash.any fun hash => !isHash hash) ||
      (backup.managedModelCatalogPendingHash.any fun hash => !isHash hash) ||
      (backup.managedModelCatalogPendingRemove && backup.managedModelCatalogPendingHash.isSome) then
    false
  else
    match backup.managedModelCatalogPath with
    | none =>
      backup.managedModelCatalogHash.isNone && backup.managedModelCatalogPendingHash.isNone &&
        !backup.managedModelCatalogPendingRemove && content.isNone
    | some path =>
      if portablePathValue path ≠ env.catalogPath then false
      else if backup.restorePending && content.isNone then true
      else
        let currentHash := content.map env.sha256Hex
        let stableValid :=
          match backup.managedModelCatalogHash with
          | some hash => isHash hash && currentHash = some hash
          | none => content.isNone
        let pendingValid := backup.managedModelCatalogPendingHash.any fun hash =>
          isHash hash && currentHash = some hash
        stableValid || pendingValid || (backup.managedModelCatalogPendingRemove && content.isNone)

def applyModelCatalogChange (previous : Option Content) (next : Option String)
    (previouslyManaged : Bool) : ProfileOp Unit :=
  match next, previouslyManaged with
  | some content, _ => replaceIfUnchanged env .catalog previous content
  | none, true => removeIfUnchanged env .catalog previous
  | none, false => pure ()

def rollbackModelCatalogChange (attempted : Option String) (previouslyManaged : Bool)
    (previous : Option Content) : ProfileOp Unit :=
  match attempted, previouslyManaged with
  | some content, _ => rollbackFile env .catalog content previous
  | none, true => restoreSnapshotIfUnchanged env .catalog none previous
  | none, false => pure ()

/-! ## Reading the backup -/

def parseBackupSnapshot (snapshot : Option Content) : Except LocalPoolError (Option ProfileBackup) :=
  match snapshotText env .backup snapshot with
  | .error e => .error e
  | .ok none => .ok none
  | .ok (some content) =>
    match env.readBackup content with
    | .ok backup => .ok (some backup)
    | .error e => .error ⟨.recoveryRequired, "ChatGPT profile backup is invalid: " ++ e⟩

/-- The root `model_catalog_json` of a file that can be read. -/
def configuredCatalog (config : Option Content) : Except LocalPoolError (Option String) :=
  match snapshotText env .config config with
  | .error e => .error e
  | .ok none => .ok none
  | .ok (some text) => (parseConfig env text).map rootModelCatalogJson

def migrateLegacyManagedCatalogMetadata (disk : Disk) (backup : ProfileBackup) :
    Option ProfileBackup :=
  match disk.files .catalog with
  | none => none
  | some content =>
    if backup.managedModelCatalogPath.isNone && backup.managedModelCatalogHash.isNone &&
        backup.managedModelCatalogPendingHash.isNone && !backup.managedModelCatalogPendingRemove &&
        env.isRelayManagedModelCatalog content then
      let currentCatalog := (configuredCatalog env (disk.files .config)).toOption.join
      some { backup with
        managedModelCatalogPath := some env.catalogPath
        managedModelCatalogHash := some (env.sha256Hex content)
        previousModelCatalogJson := backup.previousModelCatalogJson.or
          (currentCatalog.filter fun path => !env.configuredCatalogMatchesPath path) }
    else none

def migrateMissingManagedCatalogForRestore (disk : Disk) (backup : ProfileBackup) :
    Except LocalPoolError (Option ProfileBackup) :=
  if (disk.files .catalog).isSome || backup.restorePending || backup.attachPending ||
      backup.managedModelCatalogPath.isNone || backup.managedModelCatalogHash.isNone then .ok none
  else
    match configuredCatalog env (disk.files .config) with
    | .error e => .error e
    | .ok configured =>
      if configured.any env.configuredCatalogMatchesPath then .ok (some { backup with restorePending := true })
      else .ok none

/-- The last step of a migration: the migrated backup is written in place of the one that was read. -/
def writeMigrated (snapshot : Option Content) (backup : ProfileBackup) (migrated : Option ProfileBackup) :
    ProfileOp (Option Content × ProfileBackup) :=
  match migrated with
  | none => return (snapshot, backup)
  | some migrated => do
    replaceIfUnchanged env .backup snapshot (env.writeBackup migrated)
    return (some (.text (env.writeBackup migrated)), migrated)

def oauthMetadataValid (backup : ProfileBackup) : Bool :=
  match backup.boundOauthAccountId, backup.managedOauthAccessHash with
  | some accountId, some accessHash => trim accountId ≠ "" && isHash accessHash
  | some accountId, none => trim accountId ≠ ""
  | none, none => true
  | none, some _ => false

def validMetadata (backup : ProfileBackup) (catalog : Option Content) : Bool :=
  backup.version = 1 && isHash backup.managedKeyHash && trim backup.managedBaseUrl ≠ "" &&
    oauthMetadataValid backup && validManagedModelCatalog env backup catalog

def localBackup : ProfileOp (Option ProfileBackup) := do
  let disk ← Op.get
  match ← .ofExcept (parseBackupSnapshot env (disk.files .backup)) with
  | none => return none
  | some backup =>
    let (snapshot, backup) ← writeMigrated env (disk.files .backup) backup
      (migrateLegacyManagedCatalogMetadata env disk backup)
    let migrated ← .ofExcept (migrateMissingManagedCatalogForRestore env disk backup)
    let (_, backup) ← writeMigrated env snapshot backup migrated
    if validMetadata env backup (disk.files .catalog) then return some backup
    else Op.throw ⟨.recoveryRequired, "ChatGPT local gateway profile backup has invalid metadata"⟩

end

end Zenith.Profiles
