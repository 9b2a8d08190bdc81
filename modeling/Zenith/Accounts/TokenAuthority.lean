import Mathlib
import Zenith.Accounts.Record
import Zenith.Lib.LockedTasks
import Zenith.Lib.Tables
import Zenith.Lib.Text

/-!
# The token authority

The token slot of one registered account, from `accounts/token_authority.rs`. A call of the
authority looks the slot up, takes its asynchronous lock and runs under it to its end; it waits for
the refresh adapter and for the two operations of the persistence adapter, each of which may
succeed, fail, or never answer because the caller has gone away. The calls are tasks of
`Zenith.LockedTasks`, whose semantics interleaves any number of them.

`persistence` says whether the caller passed a persistence adapter: `prepare_and_persist` does,
`prepare` does not.
-/

namespace Zenith.Accounts

open Zenith.LockedTasks Zenith.Tables Zenith.Text

/-- A token that is there is not blank. -/
def NotBlank (token : Option String) : Prop := ∀ value ∈ token, trim value ≠ ""

/-- The tokens of an account. `TokenSet::new` refuses a blank access token and drops blank refresh
and identity tokens. -/
structure TokenSet where
  accessToken : String
  refreshToken : Option String
  idToken : Option String
  expiresAtMs : Option Nat
  issuedAtMs : Nat
  generation : Nat
  access_notBlank : trim accessToken ≠ ""
  refresh_notBlank : NotBlank refreshToken
  id_notBlank : NotBlank idToken
  generation_lt : generation < 2 ^ 64

def nonempty (token : Option String) : Option String :=
  token.filter fun value => trim value ≠ ""

theorem notBlank_nonempty (token : Option String) : NotBlank (nonempty token) := by
  intro value h
  simpa using (Option.mem_filter_iff.mp h).2

theorem NotBlank.or {token other : Option String} (h : NotBlank token) (h' : NotBlank other) :
    NotBlank (token.or other) := by
  intro value hv
  cases token with
  | none => exact h' value hv
  | some token => exact h value hv

def accessTokenIsUsable (expiresAtMs : Option Nat) (nowMs refreshSkewMs : Nat) : Bool :=
  expiresAtMs.all fun expiresAt => satAdd 64 nowMs refreshSkewMs < expiresAt

namespace TokenSet

def new (accessToken : String) (refreshToken idToken : Option String) (expiresAtMs : Option Nat)
    (issuedAtMs generation : Nat) (hgeneration : generation < 2 ^ 64) : Except String TokenSet :=
  if h : trim accessToken = "" then .error "access token must not be empty"
  else .ok
    { accessToken
      refreshToken := nonempty refreshToken
      idToken := nonempty idToken
      expiresAtMs
      issuedAtMs
      generation
      access_notBlank := h
      refresh_notBlank := notBlank_nonempty refreshToken
      id_notBlank := notBlank_nonempty idToken
      generation_lt := hgeneration }

def isAccessUsable (tokens : TokenSet) (nowMs refreshSkewMs : Nat) : Bool :=
  accessTokenIsUsable tokens.expiresAtMs nowMs refreshSkewMs

end TokenSet

/-- What the refresh adapter brings: `TokenRefresh::new` has the checks of `TokenSet::new`. -/
structure TokenRefresh where
  accessToken : String
  refreshToken : Option String
  idToken : Option String
  expiresAtMs : Option Nat
  access_notBlank : trim accessToken ≠ ""
  refresh_notBlank : NotBlank refreshToken
  id_notBlank : NotBlank idToken

/-- The tokens after a refresh: a refresh that brings no refresh token or no identity token keeps
the old one. -/
def TokenSet.refreshed (tokens : TokenSet) (refresh : TokenRefresh) (nowMs : Nat) : TokenSet where
  accessToken := refresh.accessToken
  refreshToken := refresh.refreshToken.or tokens.refreshToken
  idToken := refresh.idToken.or tokens.idToken
  expiresAtMs := refresh.expiresAtMs
  issuedAtMs := nowMs
  generation := satAdd 64 tokens.generation 1
  access_notBlank := refresh.access_notBlank
  refresh_notBlank := refresh.refresh_notBlank.or tokens.refresh_notBlank
  id_notBlank := refresh.id_notBlank.or tokens.id_notBlank
  generation_lt := satAdd_lt 64 _ 1

/-- The tokens after a report that the access token was refused: it expires now. -/
def TokenSet.invalidated (tokens : TokenSet) (nowMs : Nat) : TokenSet :=
  { tokens with
    expiresAtMs := some nowMs
    issuedAtMs := nowMs
    generation := satAdd 64 tokens.generation 1
    generation_lt := satAdd_lt 64 _ 1 }

structure TokenPersistenceFailure where
  code : String
deriving DecidableEq, Repr

inductive TokenRefreshFailureKind
  | invalidGrant
  | reusedRefreshToken
  | expiredRefreshToken
  | invalidatedRefreshToken
  | transient
deriving DecidableEq, Repr

structure TokenRefreshFailure where
  kind : TokenRefreshFailureKind
  code : String
deriving DecidableEq, Repr

/-- The failures after which the account has to log in again. A reused refresh token is not one:
another refresh may have rotated it first. -/
def TokenRefreshFailure.reauthReason (failure : TokenRefreshFailure) : Option ReauthReason :=
  match failure.kind with
  | .invalidGrant => some .invalidGrant
  | .reusedRefreshToken => none
  | .expiredRefreshToken => some .expiredRefreshToken
  | .invalidatedRefreshToken => some .invalidatedRefreshToken
  | .transient => none

inductive PrepareStatus
  | ready
  | refreshed
deriving DecidableEq, Repr

structure PreparedToken where
  status : PrepareStatus
  tokens : TokenSet

inductive TokenAuthorityError
  | invalidCapacity
  | invalidAccountId
  | capacityReached
  | accountNotFound
  | accessTokenExpired
  | requiresReauth (reason : ReauthReason)
  | refreshFailed (code : String)
  | persistenceRequired
  | persistenceFailed (code : String)
deriving DecidableEq, Repr

structure TokenSlot where
  tokens : TokenSet
  authState : AccountAuthState
  persistencePending : Bool := false
  authStatePersistencePending : Bool := false

/-- The slot of an account right after its registration. -/
def TokenSlot.register (tokens : TokenSet) (authState : AccountAuthState) : TokenSlot :=
  { tokens, authState }

/-- What a call waits for. -/
inductive Request
  | persist (tokens : TokenSet)
  | persistAuthState (authState : AccountAuthState)
  | refresh (refreshToken : String) (nowMs : Nat)

def Request.Answer : Request → Type
  | .persist _ => Except TokenPersistenceFailure Unit
  | .persistAuthState _ => Except TokenPersistenceFailure Unit
  | .refresh _ _ => Except TokenRefreshFailure TokenRefresh

/-! ## The calls -/

abbrev SlotTask := ExceptT TokenAuthorityError (Task TokenSlot Request Request.Answer)

namespace SlotTask

def slot : SlotTask TokenSlot := ExceptT.lift (.get .done)

def write (slot : TokenSlot) : SlotTask Unit := ExceptT.lift (.set slot (.done ()))

def persist (tokens : TokenSet) : SlotTask Unit :=
  ExceptT.mk (.await (.persist tokens) fun answer => .done <|
    match answer with
    | .ok () => .ok ()
    | .error failure => .error (.persistenceFailed failure.code))

def persistAuthState (authState : AccountAuthState) : SlotTask Unit :=
  ExceptT.mk (.await (.persistAuthState authState) fun answer => .done <|
    match answer with
    | .ok () => .ok ()
    | .error failure => .error (.persistenceFailed failure.code))

def refresh (refreshToken : String) (nowMs : Nat) :
    SlotTask (Except TokenRefreshFailure TokenRefresh) :=
  ExceptT.lift (.await (.refresh refreshToken nowMs) .done)

/-- The persistence adapter, which this step needs. -/
def requirePersistence (persistence : Bool) : SlotTask Unit :=
  if persistence then pure () else throw .persistenceRequired

end SlotTask

open SlotTask

/-- `persist_auth_state`: writes the state of the slot through, when there is an adapter. -/
def persistSlotAuthState (persistence : Bool) : SlotTask Unit := do
  if persistence then
    let slot ← slot
    write { slot with authStatePersistencePending := true }
    persistAuthState slot.authState
    let slot ← SlotTask.slot
    write { slot with authStatePersistencePending := false }

/-- Tokens that an earlier call could not persist are persisted first. -/
def flushTokens (persistence : Bool) : SlotTask Unit := do
  let slot ← slot
  if slot.persistencePending then
    requirePersistence persistence
    persist slot.tokens
    write { slot with persistencePending := false, authStatePersistencePending := true }

/-- The same for the account state. -/
def flushAuthState (persistence : Bool) : SlotTask Unit := do
  let slot ← slot
  if slot.authStatePersistencePending then
    requirePersistence persistence
    persistAuthState slot.authState
    write { slot with authStatePersistencePending := false }

/-- Older versions recorded a refresh race as a login requirement; it is taken back. -/
def healReusedToken (persistence : Bool) : SlotTask Unit := do
  let slot ← slot
  if slot.authState = .requiresReauth .reusedRefreshToken then
    write { slot with authState := .active }
    persistSlotAuthState persistence

/-- The tokens a refresh brought: written to the slot, then persisted when there is an adapter. -/
def acceptRefresh (refresh : TokenRefresh) (nowMs : Nat) (persistence : Bool) :
    SlotTask PreparedToken := do
  let slot ← slot
  let tokens := slot.tokens.refreshed refresh nowMs
  if persistence then
    write { slot with tokens, authState := .active, persistencePending := true }
    persist tokens
    let slot ← SlotTask.slot
    write { slot with persistencePending := false }
    persistSlotAuthState persistence
  else
    write { slot with tokens, authState := .active }
  return { status := .refreshed, tokens }

/-- A refresh that failed: a login requirement, or nothing that changes the account. -/
def rejectRefresh (failure : TokenRefreshFailure) (previousAuthState : AccountAuthState)
    (persistence : Bool) : SlotTask PreparedToken := do
  let slot ← slot
  match failure.reauthReason with
  | some reason =>
    write { slot with authState := .requiresReauth reason }
    persistSlotAuthState persistence
    throw (.requiresReauth reason)
  | none =>
    write { slot with authState := previousAuthState }
    throw (.refreshFailed failure.code)

/-- The tokens of the slot when they are usable, refreshed tokens otherwise. -/
def selectTokens (nowMs refreshSkewMs : Nat) (persistence : Bool) : SlotTask PreparedToken := do
  let slot ← slot
  match slot.authState with
  | .requiresReauth reason => throw (.requiresReauth reason)
  | previousAuthState =>
    if slot.tokens.isAccessUsable nowMs refreshSkewMs then
      return { status := .ready, tokens := slot.tokens }
    else
      match slot.tokens.refreshToken with
      | none =>
        write { slot with authState := .degradedAccessOnly }
        persistSlotAuthState persistence
        throw .accessTokenExpired
      | some refreshToken =>
        write { slot with authState := .refreshing }
        match ← refresh refreshToken nowMs with
        | .ok refresh => acceptRefresh refresh nowMs persistence
        | .error failure => rejectRefresh failure previousAuthState persistence

def prepareInner (nowMs refreshSkewMs : Nat) (persistence : Bool) : SlotTask PreparedToken := do
  flushTokens persistence
  flushAuthState persistence
  healReusedToken persistence
  selectTokens nowMs refreshSkewMs persistence

/-- A report that an access token was refused. It counts only if it is about the generation the
slot has now. -/
def invalidateAccessGenerationAndPersist (failedGeneration : Option Nat) (nowMs : Nat) :
    SlotTask Bool := do
  let slot ← slot
  if failedGeneration.any (slot.tokens.generation ≠ ·) then
    return false
  else
    let tokens := slot.tokens.invalidated nowMs
    write { slot with tokens, persistencePending := true }
    persist tokens
    let slot ← SlotTask.slot
    write { slot with persistencePending := false }
    return true

/-! ## The system -/

/-- A call on the account. -/
inductive SlotCall
  | prepare (nowMs refreshSkewMs : Nat)
  | prepareAndPersist (nowMs refreshSkewMs : Nat)
  | invalidate (failedGeneration : Option Nat) (nowMs : Nat)
deriving DecidableEq, Repr

inductive SlotResult
  | prepared (token : PreparedToken)
  | invalidated (changed : Bool)
  | failed (error : TokenAuthorityError)

def SlotCall.program : SlotCall → Task TokenSlot Request Request.Answer SlotResult
  | .prepare nowMs refreshSkewMs => do
    match ← (prepareInner nowMs refreshSkewMs false).run with
    | .ok token => return .prepared token
    | .error error => return .failed error
  | .prepareAndPersist nowMs refreshSkewMs => do
    match ← (prepareInner nowMs refreshSkewMs true).run with
    | .ok token => return .prepared token
    | .error error => return .failed error
  | .invalidate failedGeneration nowMs => do
    match ← (invalidateAccessGenerationAndPersist failedGeneration nowMs).run with
    | .ok changed => return .invalidated changed
    | .error error => return .failed error

abbrev SlotConfig := Config TokenSlot Request Request.Answer SlotCall SlotResult

abbrev SlotEvent := Event Request Request.Answer SlotCall

abbrev SlotEntry := Entry TokenSlot Request Request.Answer SlotCall SlotResult

abbrev slotStep : SlotConfig → SlotEvent → SlotConfig := step SlotCall.program

end Zenith.Accounts
