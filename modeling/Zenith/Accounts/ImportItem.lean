import Mathlib
import Zenith.Lib.Json
import Zenith.Lib.Tables
import Zenith.Lib.Text

/-!
# The items of an account import

`parse_item` of `accounts/import/item.rs` as far as the identity of an account goes: which credentials an
entry has and which of them count, where its e-mail, account and user come from, and the key by which
`parse_import` recognizes an account that it has seen. The label, the plan, the dates and the warnings of
the preview row are left out.
-/

namespace Zenith.Accounts.Imports

open Zenith.Bytes Zenith.Tables Zenith.Text

/-! ## Issues -/

inductive ImportIssueCode
  | ambiguousCredentials
  | duplicateItem
  | invalidCredentials
  | malformedJson
  | missingCredentials
  | quotaProbeFailed
  | refreshExchangeFailed
  | unsupportedValue
deriving DecidableEq, Repr

structure ImportIssue where
  code : ImportIssueCode
  message : String
deriving DecidableEq, Repr

inductive ImportFormat
  | jsonObject
  | jsonArray
  | jsonLines
  | portableAccountBundleV1
  | zenithV1
deriving DecidableEq, Repr

inductive ImportAuthMode
  | oauth
  | agentIdentity
  | apiKey
  | importedToken
  | unknown
deriving DecidableEq, Repr

def ImportAuthMode.asStr : ImportAuthMode → String
  | .oauth => "oauth"
  | .agentIdentity => "agent_identity"
  | .apiKey => "api_key"
  | .importedToken => "imported_token"
  | .unknown => "unknown"

/-! ## Libraries -/

/-- What `Url::parse` finds. `bare` is the text of the URL without its query and fragment. -/
structure Url where
  scheme : String
  host : Option String
  username : String
  password : Option String
  bare : String

structure ImportLibraries where
  serde : Json.Serde
  sha256 : List UInt8 → List UInt8
  /-- `URL_SAFE_NO_PAD.decode`. -/
  decodeBase64 : List Char → Option (List UInt8)
  parseUrl : String → Option Url

/-! ## Sanitizers -/

def valueField (object : Json.Fields) (fields : List String) : Option Json :=
  fields.findSome? fun field => object.get field

def stringField (object : Json.Fields) (fields : List String) : Option String :=
  (valueField object fields).bind Json.asStr

def credentialStr (object credentials : Json.Fields) (tokens : Option Json.Fields)
    (fields : List String) : Option String :=
  (tokens.bind fun tokens => stringField tokens fields).or <|
    (stringField credentials fields).or (stringField object fields)

def credentialString (object credentials : Json.Fields) (tokens : Option Json.Fields)
    (fields : List String) : Option String :=
  ((credentialStr object credentials tokens fields).map trim).filter fun value => value ≠ ""

/-- A trimmed text of some characters only, and not too long. -/
def safeText (bound : Nat) (allowed : List Char) (value : Option String) : Option String :=
  (value.map trim).filter fun value =>
    value ≠ "" && value.utf8ByteSize ≤ bound && value.toList.all fun c => c.isAlphanum || c ∈ allowed

def safeIdentifier (value : Option String) : Option String := safeText 256 ['_', '-', '.', ':'] value

def safeMetadata (value : Option String) : Option String := safeText 64 ['_', '-', '.', ' '] value

def safeBaseUrl (lib : ImportLibraries) (value : Option String) : Option String := do
  let value ← value.map trim
  if value = "" || 2048 < value.utf8ByteSize then none
  else
    let parsed ← lib.parseUrl value
    if (parsed.scheme ≠ "http" && parsed.scheme ≠ "https") || parsed.host.isNone ||
        parsed.username ≠ "" || parsed.password.isSome then
      none
    else some (trimEndMatches parsed.bare '/')

def sha256Hex (lib : ImportLibraries) (seed : String) (secret scope : Option String) : String :=
  hexEncode (lib.sha256 (utf8 seed ++ (scope.map fun scope => 0 :: utf8 scope).getD [] ++
    (secret.map fun secret => 0 :: utf8 secret).getD []))

/-! ## Tokens -/

/-- `decode_unverified_jwt_payload`. -/
def decodeUnverifiedJwtPayload (lib : ImportLibraries) (token : String) : Option Json :=
  if token = "" || 64 * 1024 < token.utf8ByteSize then none
  else
    match token.toList.splitOn '.' with
    | [header, payload, signature] =>
      if header = [] || payload = [] || signature = [] then none
      else
        (lib.decodeBase64 payload).bind fun payload =>
          if 16 * 1024 < payload.length then none else lib.serde.fromSlice payload
    | _ => none

/-- What the identity takes from the claims of tokens. -/
structure ImportedJwtMetadata where
  email : Option String := none
  accountId : Option String := none
  userId : Option String := none
deriving DecidableEq, Repr

/-- The claims of one token. -/
def claimsMetadata (claims : Json) : ImportedJwtMetadata :=
  let auth := (claims.get "https://api.openai.com/auth").bind Json.asObject
  let profile := (claims.get "https://api.openai.com/profile").bind Json.asObject
  { email := (safeMetadata ((claims.get "email").bind Json.asStr)).or <|
      profile.bind fun profile => safeMetadata ((profile.get "email").bind Json.asStr)
    accountId := auth.bind fun auth =>
      safeIdentifier (stringField auth ["chatgpt_account_id", "account_id"])
    userId := auth.bind fun auth => safeIdentifier (stringField auth ["chatgpt_user_id", "user_id"]) }

/-- The first token that has a claim gives it. -/
def ImportedJwtMetadata.or (metadata metadata' : ImportedJwtMetadata) : ImportedJwtMetadata where
  email := metadata.email.or metadata'.email
  accountId := metadata.accountId.or metadata'.accountId
  userId := metadata.userId.or metadata'.userId

/-- What another token adds. -/
def ImportedJwtMetadata.withToken (lib : ImportLibraries) (metadata : ImportedJwtMetadata)
    (token : String) : ImportedJwtMetadata :=
  match (decodeUnverifiedJwtPayload lib token).filter Json.isObject with
  | none => metadata
  | some claims => metadata.or (claimsMetadata claims)

def importedJwtMetadata (lib : ImportLibraries) (idToken accessToken : Option String) :
    ImportedJwtMetadata :=
  (idToken.toList ++ accessToken.toList).foldl (ImportedJwtMetadata.withToken lib) {}

/-! ## Fields -/

def accessTokenFields : List String := ["access_token", "accessToken"]

def refreshTokenFields : List String := ["refresh_token", "refreshToken"]

def idTokenFields : List String := ["id_token", "idToken"]

def apiKeyFields : List String := ["OPENAI_API_KEY", "openai_api_key", "api_key", "apiKey"]

def agentPrivateKeyFields : List String := ["agent_private_key", "agentPrivateKey"]

def agentRuntimeIdFields : List String := ["agent_runtime_id", "agentRuntimeId"]

def agentTaskIdFields : List String := ["task_id", "taskId"]

def emailFields : List String := ["email", "identity_email"]

def accountIdFields : List String :=
  ["chatgpt_account_id", "chatgptAccountId", "account_id", "accountId"]

def userIdFields : List String := ["chatgpt_user_id", "chatgptUserId", "user_id", "userId"]

def organizationIdFields : List String :=
  ["organization_id", "organizationId", "org_id", "orgId", "poid", "POID"]

def authModeFields : List String := ["auth_mode", "authMode", "authType"]

def baseUrlFields : List String :=
  ["base_url", "baseUrl", "api_base", "apiBase", "api_base_url", "apiBaseUrl"]

/-- The objects in an entry where fields are looked for. -/
structure ItemParts where
  object : Json.Fields
  credentials : Json.Fields
  tokens : Option Json.Fields
  auth : Option Json.Fields
  account : Option Json.Fields
  identity : Option Json.Fields
  providerData : Option Json.Fields
  metadata : Option Json.Fields

def objectField (object : Json.Fields) (field : String) : Option Json.Fields :=
  (object.get field).bind Json.asObject

def itemParts (format : ImportFormat) (object : Json.Fields) : ItemParts :=
  let auth := objectField object "auth"
  let credentials := ((objectField object "credentials").or
    (if format = .zenithV1 then auth else none)).getD object
  { object
    credentials
    tokens := (objectField object "tokens").or (objectField credentials "tokens")
    auth
    account := objectField object "account"
    identity := objectField object "identity"
    providerData := ((object.get "providerSpecificData").or
      (object.get "provider_specific_data")).bind Json.asObject
    metadata := objectField object "meta" }

/-! ## Credentials -/

structure ImportSecretMaterial where
  accessToken : Option String
  refreshToken : Option String
  idToken : Option String
  apiKey : Option String
  agentPrivateKey : Option String
  agentRuntimeId : Option String
  agentTaskId : Option String
deriving DecidableEq, Repr

namespace ItemParts

/-- All credentials of an entry. -/
def secrets (parts : ItemParts) : ImportSecretMaterial :=
  let find := credentialString parts.object parts.credentials
  { apiKey := find parts.tokens apiKeyFields
    accessToken := find parts.tokens accessTokenFields
    refreshToken := (find parts.tokens refreshTokenFields).filter fun value =>
      value ≠ "__missing_refresh_token__"
    idToken := find parts.tokens idTokenFields
    agentPrivateKey := find none agentPrivateKeyFields
    agentRuntimeId := find none agentRuntimeIdFields
    agentTaskId := find none agentTaskIdFields }

def explicitAuthMode (parts : ItemParts) : Option String :=
  (stringField parts.credentials authModeFields).or <|
    (stringField parts.object authModeFields).or <|
      parts.auth.bind fun auth => stringField auth ["type"]

/-- `credential_string` or one of the other objects, for the e-mail. -/
def email (parts : ItemParts) : Option String :=
  (credentialString parts.object parts.credentials none emailFields).or <|
    (parts.account.bind fun data => stringField data emailFields).or <|
      (parts.providerData.bind fun data => stringField data emailFields).or <|
        parts.identity.bind fun data => stringField data emailFields

/-- Where account, user and organization are looked for. `own` is a field of the account alone. -/
def identifier (parts : ItemParts) (own fields : List String) : Option String :=
  (credentialStr parts.object parts.credentials none fields).or <|
    (parts.account.bind fun data => stringField data own).or <|
      (parts.account.bind fun data => stringField data fields).or <|
        (parts.providerData.bind fun data => stringField data fields).or <|
          (parts.metadata.bind fun data => stringField data fields).or <|
            parts.identity.bind fun data => stringField data fields

end ItemParts

def isOauthMode (value : String) : Bool := asciiLower (trim value) ∈ ["chatgpt", "oauth", "openai_oauth"]

def isAgentIdentityMode (value : String) : Bool := asciiLower (trim value) ∈ ["agentidentity", "agent_identity"]

def isApiKeyMode (value : String) : Bool := asciiLower (trim value) ∈ ["apikey", "api_key"]

/-- Which credentials count. -/
structure Selection where
  useApiKey : Bool
  useTokens : Bool
  useAgentIdentity : Bool
deriving DecidableEq, Repr

def selectCredentials (secrets : ImportSecretMaterial) (explicitAuthMode : Option String) :
    Except ImportIssue Selection :=
  let hasApiKey := secrets.apiKey.isSome
  let hasTokens := secrets.accessToken.isSome || secrets.refreshToken.isSome || secrets.idToken.isSome
  let hasAgentIdentity := secrets.agentPrivateKey.isSome || secrets.agentRuntimeId.isSome ||
    secrets.agentTaskId.isSome
  if hasAgentIdentity && (secrets.agentPrivateKey.isNone || secrets.agentRuntimeId.isNone) then
    .error ⟨.invalidCredentials, "Agent Identity import requires a private key and runtime id"⟩
  else if hasApiKey && (hasTokens || hasAgentIdentity) then
    if explicitAuthMode.any isApiKeyMode then .ok ⟨true, false, false⟩
    else if explicitAuthMode.any isOauthMode || explicitAuthMode.any isAgentIdentityMode then
      .ok ⟨false, hasTokens, hasAgentIdentity⟩
    else .error ⟨.ambiguousCredentials, "import item mixes an API key with account credentials"⟩
  else if !hasApiKey && !hasTokens && !hasAgentIdentity then
    .error ⟨.missingCredentials, "import item has no supported credential"⟩
  else .ok ⟨hasApiKey, hasTokens, hasAgentIdentity⟩

/-- The credentials that count, and the mode they are for. -/
def Selection.authMode (selection : Selection) (explicitAuthMode : Option String) : ImportAuthMode :=
  if selection.useApiKey then .apiKey
  else if selection.useAgentIdentity then .agentIdentity
  else if explicitAuthMode.any isOauthMode then .oauth
  else .importedToken

def Selection.secrets (selection : Selection) (secrets : ImportSecretMaterial) : ImportSecretMaterial where
  accessToken := if selection.useTokens then secrets.accessToken else none
  refreshToken := if selection.useTokens then secrets.refreshToken else none
  idToken := if selection.useTokens then secrets.idToken else none
  apiKey := if selection.useApiKey then secrets.apiKey else none
  agentPrivateKey := if selection.useAgentIdentity then secrets.agentPrivateKey else none
  agentRuntimeId := if selection.useAgentIdentity then secrets.agentRuntimeId else none
  agentTaskId := if selection.useAgentIdentity then secrets.agentTaskId else none

/-! ## Identities -/

def tokenIdentitySeed (accountId userId email : Option String) : Option String :=
  let account := accountId.map fun value => asciiLower (trim value)
  let user := userId.map fun value => asciiLower (trim value)
  let email := email.map fun value => asciiLower (trim value)
  match account, email, user with
  | some account, some email, _ => some ("account:" ++ account ++ ":email:" ++ email)
  | some account, none, some user => some ("account:" ++ account ++ ":user:" ++ user)
  | some account, none, none => some ("account:" ++ account)
  | none, some email, _ => some ("email:" ++ email)
  | none, none, some user => some ("user:" ++ user)
  | none, none, none => none

/-- The seed of an API key. -/
def apiIdentitySeed (accountId email : Option String) : Option String :=
  (accountId.map fun value => "account:" ++ asciiLower value).or <|
    email.map fun value => "email:" ++ asciiLower (trim value)

/-- The seed with what kind of account it is for. -/
def accountSeed (useApiKey : Bool) (accountId userId email baseUrl : Option String) : Option String :=
  if useApiKey then
    (apiIdentitySeed accountId email).map fun seed => "api:" ++ baseUrl.getD "default" ++ ":" ++ seed
  else (tokenIdentitySeed accountId userId email).map fun seed => "account:" ++ seed

/-- The key by which an account is recognized. -/
def identityKeyOf (lib : ImportLibraries) (useApiKey : Bool) (accountId userId email baseUrl : Option String)
    (fingerprint : String) : String :=
  match accountSeed useApiKey accountId userId email baseUrl with
  | some seed => sha256Hex lib seed none none
  | none =>
    sha256Hex lib (if useApiKey then "api-key-without-identity" else "token-without-identity")
      (some fingerprint) baseUrl

structure ParsedImportItem where
  itemId : String
  authMode : ImportAuthMode
  identityKey : String
  accountId : Option String
  chatgptUserId : Option String
  organizationId : Option String
  baseUrl : Option String
  baseUrlSupplied : Bool
  email : Option String
  secrets : ImportSecretMaterial
deriving DecidableEq, Repr

def importErrorMarker : String := "__zenith_import_error"

def parseItem (lib : ImportLibraries) (value : Json) (ordinal : Nat) (format : ImportFormat)
    (sourceFile : Option String) : Except ImportIssue ParsedImportItem :=
  match value.asObject with
  | none => .error ⟨.unsupportedValue, "import item must be a JSON object"⟩
  | some object =>
    if ((object.get importErrorMarker).bind Json.asBool).isSome then
      .error ⟨.malformedJson, "import file or line is malformed"⟩
    else
      let parts := itemParts format object
      let secrets := parts.secrets
      match selectCredentials secrets parts.explicitAuthMode with
      | .error issue => .error issue
      | .ok selection =>
        if selection.useTokens && secrets.accessToken.isNone && secrets.refreshToken.isNone then
          .error ⟨.invalidCredentials, "token import requires an access or refresh token"⟩
        else
          let authMode := selection.authMode parts.explicitAuthMode
          let jwt := importedJwtMetadata lib secrets.idToken secrets.accessToken
          let email := parts.email.or jwt.email
          let accountId := (safeIdentifier (parts.identifier ["id"] accountIdFields)).or jwt.accountId
          let chatgptUserId := (safeIdentifier (parts.identifier [] userIdFields)).or jwt.userId
          let baseUrlValue := valueField object baseUrlFields
          let baseUrl := safeBaseUrl lib (baseUrlValue.bind Json.asStr)
          -- The credential was checked to be there.
          let fingerprint :=
            (if selection.useApiKey then secrets.apiKey
              else if selection.useAgentIdentity then secrets.agentPrivateKey
              else secrets.refreshToken.or (secrets.accessToken.or secrets.idToken)).getD ""
          let itemSeed := (accountSeed selection.useApiKey accountId chatgptUserId email baseUrl).getD
            (sourceFile.getD "pasted" ++ ":" ++ toString ordinal ++ ":" ++ authMode.asStr)
          .ok {
            itemId := "import_" ++ String.ofList ((sha256Hex lib itemSeed none none).toList.take 16)
            authMode
            identityKey := identityKeyOf lib selection.useApiKey accountId chatgptUserId email baseUrl
              fingerprint
            accountId
            chatgptUserId
            organizationId := safeIdentifier (parts.identifier [] organizationIdFields)
            baseUrl
            baseUrlSupplied := baseUrlValue.isSome
            email
            secrets := selection.secrets secrets }

/-! ## The import -/

inductive ImportPreviewStatus
  | ready
  | existing
  | quotaFailed
  | invalid
deriving DecidableEq, Repr

/-- A row of the preview. -/
structure ImportPreviewRow where
  status : ImportPreviewStatus
  error : Option ImportIssue
  defaultSelected : Bool
  selectable : Bool
  existing : Bool
deriving DecidableEq, Repr

def readyRow : ImportPreviewRow where
  status := .ready
  error := none
  defaultSelected := true
  selectable := true
  existing := false

def invalidRow (issue : ImportIssue) : ImportPreviewRow where
  status := .invalid
  error := some issue
  defaultSelected := false
  selectable := false
  existing := false

/-- An entry of the input: a value, or what is wrong with it. -/
structure InputEntry where
  ordinal : Nat
  value : Option Json
  issue : Option ImportIssue

def parseEntry (lib : ImportLibraries) (format : ImportFormat) (sourceFile : Option String)
    (entry : InputEntry) : Except ImportIssue ParsedImportItem :=
  match entry.value with
  | some value => parseItem lib value entry.ordinal format sourceFile
  | none => .error (entry.issue.getD ⟨.malformedJson, "malformed JSON item"⟩)

/-- The row of an account that was not seen before. -/
def newRow (existing : List String) (identityKey : String) : ImportPreviewRow :=
  if identityKey ∈ existing then
    { readyRow with status := .existing, defaultSelected := false, existing := true }
  else readyRow

/-- The loop of `parse_import` over the entries: an account with a key that was seen is a duplicate. -/
def importEntries (lib : ImportLibraries) (format : ImportFormat) (sourceFile : Option String)
    (existing : List String) (seen : List String) :
    List InputEntry → List ImportPreviewRow × List ParsedImportItem
  | [] => ([], [])
  | entry :: entries =>
    match parseEntry lib format sourceFile entry with
    | .error issue =>
      let (rows, items) := importEntries lib format sourceFile existing seen entries
      (invalidRow issue :: rows, items)
    | .ok item =>
      let identityKey := asciiLower item.identityKey
      if identityKey ∈ seen then
        let (rows, items) := importEntries lib format sourceFile existing seen entries
        (invalidRow ⟨.duplicateItem, "duplicate import item"⟩ :: rows, items)
      else
        let (rows, items) := importEntries lib format sourceFile existing (identityKey :: seen) entries
        (newRow existing identityKey :: rows, item :: items)

end Zenith.Accounts.Imports
