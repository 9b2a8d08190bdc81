import Zenith.Lib.Runs
import Zenith.Server.RuntimeBuild

/-!
# Importing accounts

`http/management/imports.rs` with `store/imports.rs`. A preview looks for an account with the same identity and stores
the credential under a reference of its own; its confirmation points the account, new or old, at that reference and
deletes the secret that the account had before. Sessions that are not confirmed expire after half an hour.

Calls run side by side, and each call to the store or the vault is a step of its own. A batch is a series of the
same previews and confirmations. The calls to the store and the vault succeed; the tokens that a probe may refresh
are not followed, only what it makes of the record.
-/

namespace Zenith.Server

open Std Zenith.Accounts Zenith.Records Zenith.Runs Zenith.Tables Zenith.Text

/-- The account record with the fields that only imports write. -/
structure ImportedAccount extends ServerAccountRecord where
  identityHint : String
  providerFamily : Option String := some "openai"
  createdAtMs : Nat
deriving DecidableEq

structure StoredCredential extends AccountCredential where
  idToken : Option String := none
  expiresAtMs : Option Nat := none
  issuedAtMs : Nat
  generation : Nat := 0
deriving DecidableEq, Repr

structure AccountImportInput where
  label : String
  accessToken : String := ""
  agentPrivateKey : Option String := none
  agentRuntimeId : Option String := none
  agentTaskId : Option String := none
  refreshToken : Option String := none
  idToken : Option String := none
  expiresAtMs : Option Nat := none
  planType : Option String := none
  subscriptionActiveUntilMs : Option Nat := none
  chatgptAccountId : String
  responsesUrl : Option String := none
  models : List String := []
  allowedModels : List String := []
  excludedModels : List String := []
  priority : Int := 0
  weight : Nat := 1
deriving DecidableEq, Repr

structure AccountImportPreview where
  sessionId : String
  accountId : RecordId
  duplicateAccountId : Option RecordId
  label : String
  identityHint : String
  models : List String
  authState : AccountAuthState
  expiresAtMs : Option Nat
  planType : Option String
  subscriptionActiveUntilMs : Option Nat
  allowedModels : List String
  excludedModels : List String
  priority : Int
  weight : Nat
  batchSessionId : Option String
deriving DecidableEq

structure PendingImport where
  id : String
  preview : AccountImportPreview
  secretRef : String
  createdAtMs : Nat
deriving DecidableEq

/-- Code of other modules: the checks of URLs, tokens and agent identities, the hint of an identity, a digest, and the
text of a credential in the vault. -/
structure ImportParts where
  identityHint : String → String
  validateAccountResponsesUrl : Option String → Except String String
  agentIdentity : String → String → Option String → Except String Unit
  validateTokens : StoredCredential → Except String Unit
  normalizePlan : String → String
  encode : StoredCredential → String
  decode : String → Option StoredCredential

/-! ## The checks of a preview -/

def maxSecretBytes : Nat := 64 * 1024

def validateSecret (value name : String) : Except String Unit :=
  if value = "" || maxSecretBytes < value.utf8ByteSize || value.toList.any fun c => c.toNat < 0x20 || c.toNat = 0x7F then
    .error (name ++ " is invalid")
  else .ok ()

/-- `clean_label` and `clean_identifier`, which differ in their bound. -/
def cleanText (bound : Nat) (value name : String) : Except String String :=
  let value := trim value
  if value = "" || bound < value.utf8ByteSize || value.toList.any isControl then .error (name ++ " is invalid") else .ok value

def cleanLabel (value name : String) : Except String String := cleanText 128 value name

def cleanIdentifier (value name : String) : Except String String := cleanText 512 value name

def containsSensitive (value : String) (sensitive : List (Option String)) : Bool :=
  sensitive.any (·.any fun secret => 4 ≤ secret.utf8ByteSize && value.toList.tails.any (secret.toList.isPrefixOf ·))

def redactImportLabel (value : String) (sensitive : List (Option String)) : String :=
  if containsSensitive value sensitive then "Imported account" else value

def safePlanType (value : String) : Option String :=
  let value := trim value
  if value ≠ "" && value.utf8ByteSize ≤ 64 && value.toList.all fun c => c.isAlphanum || c = '-' || c = '_' || c = '.' then
    some (asciiLower value)
  else none

def nonempty (value : Option String) : Option String := (value.map trim).filter (· ≠ "")

/-- `normalize_model_ids`: the first spelling of each model is kept. -/
def normalizedValues (values : List String) : List String :=
  ((values.map trim).filter (· ≠ "")).foldl (fun kept value =>
    if kept.any (eqIgnoreAsciiCase · value) then kept else kept ++ [value]) []

def validWeight (value : Nat) : Except String Nat := if 0 < value then .ok value else .error "weight must be positive"

def StoredCredential.isAgentIdentity (credential : StoredCredential) : Bool :=
  credential.agentPrivateKey.isSome || credential.agentRuntimeId.isSome || credential.agentTaskId.isSome

/-- The ids that a preview draws, and the last part of the reference of its secret. -/
structure ImportNames where
  accountId : RecordId
  sessionId : String
  secretUuid : String

/-- A preview, with what it draws and its time. -/
structure PreviewCall where
  input : AccountImportInput
  batchSessionId : Option String := none
  names : ImportNames
  nowMs : Nat := 0

/-- The account that the credential is for: the one that was found, or a new one. -/
def PreviewCall.accountId (call : PreviewCall) (duplicate : Option ImportedAccount) : RecordId :=
  (duplicate.map (·.id)).getD call.names.accountId

def PreviewCall.secretRef (call : PreviewCall) (duplicate : Option ImportedAccount) : String :=
  "account:" ++ (call.accountId duplicate).text ++ ":" ++ call.names.secretUuid

section
variable (parts : ImportParts)

/-- The credential comes with an agent's identity, or with an access token. -/
def AccountImportInput.validateSecrets (input : AccountImportInput) : Except String Unit := do
  if input.agentPrivateKey.isSome || input.agentRuntimeId.isSome || input.agentTaskId.isSome then
    parts.agentIdentity (input.agentPrivateKey.getD "") (input.agentRuntimeId.getD "") input.agentTaskId
  else validateSecret input.accessToken "access token"
  if let some value := input.refreshToken then validateSecret value "refresh token"
  if let some value := input.idToken then validateSecret value "ID token"

def StoredCredential.validate (credential : StoredCredential) : Except String Unit := do
  if credential.isAgentIdentity then
    match credential.agentPrivateKey, credential.agentRuntimeId with
    | some privateKey, some runtimeId => parts.agentIdentity privateKey runtimeId credential.agentTaskId
    | _, _ => .error "stored Agent Identity credential is incomplete"
  if credential.hasOauth then parts.validateTokens credential
  require (credential.isAgentIdentity = true ∨ credential.hasOauth = true) "account credential has no authorization method"

/-- A new credential takes over the refresh token and the proxy of the one that it replaces. -/
def importedCredential (input : AccountImportInput) (chatgptAccountId responsesUrl : String) (existing : Option StoredCredential)
    (nowMs : Nat) : StoredCredential :=
  { accessToken := input.accessToken
    refreshToken := (nonempty input.refreshToken).or (existing.bind (·.refreshToken))
    idToken := nonempty input.idToken
    expiresAtMs := input.expiresAtMs
    issuedAtMs := nowMs
    chatgptAccountId
    responsesUrl
    proxyUrl := existing.bind (·.proxyUrl)
    agentPrivateKey := input.agentPrivateKey
    agentRuntimeId := input.agentRuntimeId
    agentTaskId := input.agentTaskId }

/-- `prepare_account_import` on what it has read, up to what it stores. -/
def prepareAccountImport (call : PreviewCall) (duplicate : Option ImportedAccount) (existing : Option StoredCredential) :
    Except String (PendingImport × String) := do
  let input := call.input
  input.validateSecrets parts
  let sensitive := [some input.accessToken, input.refreshToken, input.idToken, input.agentPrivateKey, some input.chatgptAccountId]
  let label ← cleanLabel input.label "account label"
  let planType := (input.planType.filter fun value => !containsSensitive value sensitive).bind safePlanType
  let chatgptAccountId ← cleanIdentifier input.chatgptAccountId "account id"
  let responsesUrl ← parts.validateAccountResponsesUrl input.responsesUrl
  let credential := importedCredential input chatgptAccountId responsesUrl existing call.nowMs
  credential.validate parts
  let weight ← validWeight input.weight
  let preview : AccountImportPreview :=
    { sessionId := call.names.sessionId
      accountId := call.accountId duplicate
      duplicateAccountId := duplicate.map (·.id)
      label := redactImportLabel label sensitive
      identityHint := parts.identityHint chatgptAccountId
      models := normalizedValues input.models
      authState := if credential.isAgentIdentity || credential.refreshToken.isSome then .active else .degradedAccessOnly
      expiresAtMs := credential.expiresAtMs
      planType
      subscriptionActiveUntilMs := input.subscriptionActiveUntilMs
      allowedModels := normalizedValues input.allowedModels
      excludedModels := normalizedValues input.excludedModels
      priority := input.priority
      weight
      batchSessionId := call.batchSessionId }
  .ok (⟨call.names.sessionId, preview, call.secretRef duplicate, call.nowMs⟩, parts.encode credential)

/-- What a session says of its account and its secret. -/
structure PreparedBy (call : PreviewCall) (duplicate : Option ImportedAccount) (pending : PendingImport) : Prop where
  id : pending.id = call.names.sessionId
  accountId : pending.preview.accountId = call.accountId duplicate
  secretRef : pending.secretRef = call.secretRef duplicate
  identity : (cleanIdentifier call.input.chatgptAccountId "account id").map parts.identityHint = .ok pending.preview.identityHint

theorem prepareAccountImport_ok {call : PreviewCall} {duplicate : Option ImportedAccount} {existing : Option StoredCredential}
    {pending : PendingImport} {credential : String}
    (h : prepareAccountImport parts call duplicate existing = .ok (pending, credential)) : PreparedBy parts call duplicate pending := by
  unfold prepareAccountImport at h
  obtain ⟨-, -, h⟩ := bind_eq_ok.mp h
  obtain ⟨label, -, h⟩ := bind_eq_ok.mp h
  obtain ⟨chatgptAccountId, hid, h⟩ := bind_eq_ok.mp h
  obtain ⟨responsesUrl, -, h⟩ := bind_eq_ok.mp h
  obtain ⟨-, -, h⟩ := bind_eq_ok.mp h
  obtain ⟨weight, -, h⟩ := bind_eq_ok.mp h
  obtain ⟨rfl, -⟩ := Prod.mk.inj (Except.ok.inj h)
  exact ⟨rfl, rfl, rfl, by rw [hid]; rfl⟩

/-! ## The record that a confirmation makes -/

def Subscription.normalize (planType : Option String) (activeUntilMs : Option Nat) (forbidden : Bool) (observedAtMs : Nat) :
    Subscription :=
  let planType := (planType.map parts.normalizePlan).filter (· ≠ "")
  { planType
    activeUntilMs
    status :=
      if forbidden then .forbidden
      else if activeUntilMs.any fun activeUntil => activeUntil ≤ observedAtMs then .expired
      else if planType.isSome || activeUntilMs.isSome then .active
      else .unknown
    updatedAtMs := some observedAtMs }

def importedSubscription (preview : AccountImportPreview) (existing : Option ImportedAccount) (nowMs : Nat) : Subscription :=
  let subscription :=
    if preview.planType.isSome || preview.subscriptionActiveUntilMs.isSome then
      Subscription.normalize parts preview.planType preview.subscriptionActiveUntilMs false nowMs
    else (existing.map (·.subscription)).getD {}
  if subscription.activeUntilMs.isNone then { subscription with updatedAtMs := none } else subscription

/-- What an account already has is kept, but for its credential, its state and its subscription. -/
def importedRecord (pending : PendingImport) (existing : Option ImportedAccount) (addToPool : Bool) (nowMs : Nat) : ImportedAccount :=
  let preview := pending.preview
  { id := preview.accountId
    label := (existing.map (·.label)).getD preview.label
    identityHint := preview.identityHint
    enabled := existing.all (·.enabled)
    inPool := addToPool || existing.any (·.inPool)
    draining := existing.any (·.draining)
    sourceId := "openai_codex"
    secretRef := pending.secretRef
    providerFamily := (existing.bind (·.providerFamily)).or (some "openai")
    authState := preview.authState
    health := .healthy
    models := (existing.map (·.models)).getD preview.models
    discoveredModels := existing.bind (·.discoveredModels)
    allowedModels := (existing.map (·.allowedModels)).getD preview.allowedModels
    excludedModels := (existing.map (·.excludedModels)).getD preview.excludedModels
    priority := (existing.map (·.priority)).getD preview.priority
    weight := (existing.map (·.weight)).getD preview.weight
    subscription := importedSubscription parts preview existing nowMs
    quota := (existing.map (·.quota)).getD {}
    purchaseCostMicroUsd := existing.bind (·.purchaseCostMicroUsd)
    cooldowns := []
    consecutiveFailures := 0
    createdAtMs := ((existing.map (·.createdAtMs)).filter (0 < ·)).getD pending.createdAtMs
    lastUsedAtMs := existing.bind (·.lastUsedAtMs)
    lastErrorCode := none
    proxyId := existing.bind (·.proxyId)
    bypassCommonProxy := existing.any (·.bypassCommonProxy) }

end

end Zenith.Server
