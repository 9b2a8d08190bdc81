import Mathlib
import Zenith.Lib.Bytes
import Zenith.Lib.Runs
import Zenith.Lib.Tables
import Zenith.Lib.Text

/-!
# Turn states of the accounts

An account upstream may answer with the header `x-codex-turn-state`, and a client echoes the value in
the next request of its session. `gateway/turn_state.rs` relays the header and drops it from a request
that is routed to another account; `CodexTurnStateStore` of `runtime/session_state.rs` says whose it is.

The store keeps no values, only the account that issued the last one for each key and session. `step` is
the gateway as one session of one key sees it. As long as the client echoes only values of the account noted
last, a value reaches no account but its own (`turnStates_contained`). An older one is forwarded
(`older_value_leaks`), and two requests that overlap are enough for that (`overlapping_turns_leak`).
-/

namespace Zenith.Gateway

open Std (ExtTreeMap)
open Zenith.Bytes Zenith.Runs Zenith.Tables Zenith.Text

/-! ## Headers -/

/-- The headers of a message, their names in lower case. -/
abbrev HeaderMap := List (String × List UInt8)

namespace HeaderMap

/-- `HeaderMap::get`: the first value of a header. -/
def get (headers : HeaderMap) (name : String) : Option (List UInt8) := headers.lookup name

def contains (headers : HeaderMap) (name : String) : Bool := headers.any fun entry => entry.1 = name

def remove (headers : HeaderMap) (name : String) : HeaderMap :=
  headers.filter fun entry => entry.1 ≠ name

/-- `HeaderMap::get_all`. -/
def getAll (headers : HeaderMap) (name : String) : List (List UInt8) :=
  (headers.filter fun entry => entry.1 = name).map Prod.snd

theorem getAll_remove (headers : HeaderMap) (name : String) : (headers.remove name).getAll name = [] := by
  simp [getAll, remove, List.filter_filter]

theorem getAll_of_not_contains {headers : HeaderMap} {name : String}
    (h : headers.contains name = false) : headers.getAll name = [] := by
  simp only [contains, List.any_eq_false, decide_eq_true_eq] at h
  rw [getAll, List.filter_eq_nil_iff.mpr fun entry hmem => by simpa using h entry hmem, List.map_nil]

end HeaderMap

/-- `HeaderValue::to_str`: visible ASCII characters, spaces and tabs. -/
def headerText (value : List UInt8) : Option String :=
  if value.all fun b => (0x20 ≤ b && b < 0x7F) || b == 0x09 then
    some (String.ofList (value.map fun b => Char.ofNat b.toNat))
  else none

/-- `HeaderValue::from_bytes` takes these bytes. -/
def isHeaderValue (value : List UInt8) : Bool :=
  value.all fun b => (0x20 ≤ b && b != 0x7F) || b == 0x09

def codexTurnStateHeader : String := "x-codex-turn-state"

def sessionHeaders : List String :=
  ["x-codex-session-id", "x-codex-parent-thread-id", "x-session-id", "session_id", "session-id",
    "thread-id"]

def clientSessionId (headers : HeaderMap) : Option String :=
  sessionHeaders.findSome? fun name => do
    let value ← headers.get name
    let text ← headerText value
    let session := trim text
    if session ≠ "" ∧ session.utf8ByteSize ≤ 256 ∧ session.toList.any isControl = false then
      some session
    else none

/-! ## The store -/

def codexTurnStateTtlMs : Nat := 60 * 60 * 1000

structure CodexTurnStateOrigin where
  accountId : String
  expiresAtMs : Nat
deriving DecidableEq, Repr

structure CodexTurnStateStore where
  origins : Table String CodexTurnStateOrigin := ∅
  writes : Nat := 0

namespace CodexTurnStateStore

section
variable (sha256 : List UInt8 → List UInt8)

def key (localKeyId sessionId : String) : Option String :=
  let localKeyId := trim localKeyId
  let sessionId := trim sessionId
  if localKeyId = "" ∨ sessionId = "" then none
  else some (hexEncode (sha256 (utf8 ("codex-turn-state\x00" ++ localKeyId ++ "\x00" ++ sessionId))))

/-- `note`, up to its sweep: the lock is released before the sweep takes it again. The flag says that a
sweep is due. -/
def note (store : CodexTurnStateStore) (localKeyId sessionId accountId : String) (nowMs : Nat) :
    CodexTurnStateStore × Bool :=
  match key sha256 localKeyId sessionId with
  | none => (store, false)
  | some key =>
    let accountId := trim accountId
    if accountId = "" then (store, false)
    else
      ({ origins := store.origins.insert key
           ⟨accountId, satAdd 64 nowMs codexTurnStateTtlMs⟩,
         writes := (store.writes + 1) % 2 ^ 64 },
        store.writes % 256 = 255)

/-- `belongs_to_account`. An origin that has expired is removed. -/
def belongsToAccount (store : CodexTurnStateStore) (localKeyId sessionId accountId : String)
    (nowMs : Nat) : Bool × CodexTurnStateStore :=
  match key sha256 localKeyId sessionId with
  | none => (false, store)
  | some key =>
    match store.origins[key]? with
    | none => (false, store)
    | some origin =>
      if origin.expiresAtMs ≤ nowMs then
        (false, { store with origins := store.origins.erase key })
      else (origin.accountId = trim accountId, store)

def sweep (store : CodexTurnStateStore) (nowMs : Nat) : CodexTurnStateStore :=
  { store with origins := store.origins.filter fun _ origin => nowMs < origin.expiresAtMs }

end

variable {store : CodexTurnStateStore} {nowMs : Nat}

variable {sha256 : List UInt8 → List UInt8} {localKeyId sessionId accountId : String} {origin : CodexTurnStateOrigin}

/-- An origin is either kept by a check of the owner, or it has expired. -/
theorem origins_belongsToAccount {k : String}
    (h : (store.belongsToAccount sha256 localKeyId sessionId accountId nowMs).2.origins[k]? =
      some origin) : store.origins[k]? = some origin := by
  unfold belongsToAccount at h
  split at h
  case h_1 => exact h
  case h_2 =>
    split at h
    case h_1 => exact h
    case h_2 =>
      split at h
      case isTrue =>
        rw [ExtTreeMap.getElem?_erase] at h
        split at h
        · exact nomatch h
        · exact h
      case isFalse => exact h

theorem origins_sweep {k : String}
    (h : (store.sweep nowMs).origins[k]? = some origin) :
    store.origins[k]? = some origin := by
  rw [sweep, ExtTreeMap.getElem?_filter', Option.filter_eq_some_iff] at h
  exact h.1

/-- A session belongs to the account that its live origin names, and to no other. -/
theorem belongsToAccount_iff :
    (store.belongsToAccount sha256 localKeyId sessionId accountId nowMs).1 = true ↔
      ∃ k origin, key sha256 localKeyId sessionId = some k ∧ store.origins[k]? = some origin ∧
        nowMs < origin.expiresAtMs ∧ origin.accountId = trim accountId := by
  unfold belongsToAccount
  cases hkey : key sha256 localKeyId sessionId with
  | none => simp
  | some k =>
    cases horigin : store.origins[k]? with
    | none => simp [horigin]
    | some origin =>
      by_cases hlive : origin.expiresAtMs ≤ nowMs
      · simp [horigin, hlive]
      · simp [horigin, hlive, Nat.lt_of_not_le hlive]

end CodexTurnStateStore

open CodexTurnStateStore

/-! ## The gateway -/

section
variable (sha256 : List UInt8 → List UInt8)

/-- `guard_account_request`: the headers that are forwarded. -/
def guardAccountRequest (store : CodexTurnStateStore) (localKeyId : String) (headers : HeaderMap)
    (accountId : String) (nowMs : Nat) : HeaderMap × CodexTurnStateStore :=
  if !headers.contains codexTurnStateHeader then (headers, store)
  else
    match clientSessionId headers with
    | none => (headers.remove codexTurnStateHeader, store)
    | some sessionId =>
      let (owned, store) := store.belongsToAccount sha256 localKeyId sessionId accountId nowMs
      if owned then (headers, store) else (headers.remove codexTurnStateHeader, store)

/-- `relay_account_response_header`: the value that the client receives. -/
def relayAccountResponseHeader (store : CodexTurnStateStore) (localKeyId : String)
    (clientHeaders : HeaderMap) (accountId : String) (upstreamHeaders : HeaderMap) (nowMs : Nat) :
    Option (List UInt8) × CodexTurnStateStore :=
  match upstreamHeaders.get codexTurnStateHeader with
  | none => (none, store)
  | some state =>
    match clientSessionId clientHeaders with
    | none => (none, store)
    | some sessionId =>
      if !isHeaderValue state || state.isEmpty then (none, store)
      else (some state, (store.note sha256 localKeyId sessionId accountId nowMs).1)

/-- `note_account_response_header`: on a WebSocket the client has its response already. -/
def noteAccountResponseHeader (store : CodexTurnStateStore) (localKeyId : String)
    (clientHeaders : HeaderMap) (accountId : String) (upstreamHeaders : HeaderMap) (nowMs : Nat) :
    CodexTurnStateStore :=
  match upstreamHeaders.get codexTurnStateHeader with
  | none => store
  | some state =>
    if state.isEmpty then store
    else
      match clientSessionId clientHeaders with
      | none => store
      | some sessionId => (store.note sha256 localKeyId sessionId accountId nowMs).1

end

/-- What happens in a session. `headers` are those of the client's request. -/
inductive TurnEvent
  /-- A request is forwarded to an account. -/
  | request (nowMs : Nat) (headers : HeaderMap) (accountId : String)
  /-- The response of an account is relayed. -/
  | response (nowMs : Nat) (headers : HeaderMap) (accountId : String) (upstream : HeaderMap)
  /-- The WebSocket of an account is open. -/
  | connected (nowMs : Nat) (headers : HeaderMap) (accountId : String) (upstream : HeaderMap)
  /-- The sweep of an earlier `note`. -/
  | sweep (nowMs : Nat)

namespace TurnEvent

def headers : TurnEvent → Option HeaderMap
  | request _ headers _ => some headers
  | response _ headers _ _ => some headers
  | connected _ headers _ _ => some headers
  | sweep _ => none

def accountId : TurnEvent → Option String
  | request _ _ accountId => some accountId
  | response _ _ accountId _ => some accountId
  | connected _ _ accountId _ => some accountId
  | sweep _ => none

end TurnEvent

/-- The store of the gateway, with what happened in the session: the values the client received, each
with the account that issued it, and the account whose turn state was noted last. -/
structure TurnSession where
  store : CodexTurnStateStore := {}
  received : List (List UInt8 × String) := []
  noted : Option String := none

section
variable (sha256 : List UInt8 → List UInt8) (localKeyId : String)

/-- The turn states in the forwarded request. -/
def forwardedStates (s : TurnSession) (nowMs : Nat) (headers : HeaderMap) (accountId : String) :
    List (List UInt8) :=
  (guardAccountRequest sha256 s.store localKeyId headers accountId nowMs).1.getAll codexTurnStateHeader

/-- The account noted after a response: the store takes no blank account. -/
def notedAfter (s : TurnSession) (accountId : String) : Option String :=
  if trim accountId = "" then s.noted else some accountId

def TurnSession.step (s : TurnSession) : TurnEvent → TurnSession
  | .request nowMs headers accountId =>
    { s with store := (guardAccountRequest sha256 s.store localKeyId headers accountId nowMs).2 }
  | .response nowMs headers accountId upstream =>
    match relayAccountResponseHeader sha256 s.store localKeyId headers accountId upstream nowMs with
    | (none, store) => { s with store }
    | (some value, store) =>
      { store, received := s.received ++ [(value, accountId)], noted := notedAfter s accountId }
  | .connected nowMs headers accountId upstream =>
    let store := noteAccountResponseHeader sha256 s.store localKeyId headers accountId upstream nowMs
    if (upstream.get codexTurnStateHeader).all List.isEmpty || (clientSessionId headers).isNone then
      { s with store }
    else { s with store, noted := notedAfter s accountId }
  | .sweep nowMs => { s with store := s.store.sweep nowMs }

/-- A forwarded value goes to the accounts only that issued it. -/
def Contained (s : TurnSession) : TurnEvent → Prop
  | .request nowMs headers accountId => ∀ value ∈ forwardedStates sha256 localKeyId s nowMs headers accountId,
      ∀ issuer, (value, issuer) ∈ s.received → issuer = accountId
  | _ => True

end

/-- An event of the session, in which the client echoes only values it received. -/
def Echoes (sessionId : String) (s : TurnSession) (event : TurnEvent) : Prop :=
  (∀ headers ∈ event.headers, clientSessionId headers = some sessionId) ∧
    match event with
    | .request _ headers _ => ∀ value ∈ headers.getAll codexTurnStateHeader,
        ∃ issuer, (value, issuer) ∈ s.received
    | _ => True

/-- The client echoes only values of the account whose turn state was noted last. -/
def EchoesLast (s : TurnSession) : TurnEvent → Prop
  | .request _ headers _ => ∀ value ∈ headers.getAll codexTurnStateHeader,
      ∀ issuer, (value, issuer) ∈ s.received → s.noted = some issuer
  | _ => True

section
variable {sha256 : List UInt8 → List UInt8} {localKeyId sessionId : String}

variable {s : TurnSession} {nowMs : Nat} {headers : HeaderMap} {accountId : String}

/-- Only a request to the owner of its session is forwarded with turn states. -/
theorem forwarded_owned (hsession : clientSessionId headers = some sessionId) {value : List UInt8}
    (h : value ∈ forwardedStates sha256 localKeyId s nowMs headers accountId) :
    value ∈ headers.getAll codexTurnStateHeader ∧
      (s.store.belongsToAccount sha256 localKeyId sessionId accountId nowMs).1 = true := by
  rw [forwardedStates, guardAccountRequest] at h
  split at h
  case isTrue habsent =>
    rw [HeaderMap.getAll_of_not_contains (by simpa using habsent)] at h
    exact nomatch h
  case isFalse =>
    rw [hsession] at h
    dsimp only at h
    split at h
    case isTrue howned => exact ⟨h, howned⟩
    case isFalse =>
      rw [HeaderMap.getAll_remove] at h
      exact nomatch h

theorem forwarded_of_owned (hsession : clientSessionId headers = some sessionId)
    (howned : (s.store.belongsToAccount sha256 localKeyId sessionId accountId nowMs).1 = true) :
    forwardedStates sha256 localKeyId s nowMs headers accountId =
      headers.getAll codexTurnStateHeader := by
  rw [forwardedStates, guardAccountRequest, hsession]
  dsimp only
  rw [howned, if_pos rfl]
  split <;> rfl

/-- The origin of the session names the account that was noted last. -/
def NamesLast (sha256 : List UInt8 → List UInt8) (localKeyId sessionId : String) (s : TurnSession) :
    Prop :=
  ∀ k origin, key sha256 localKeyId sessionId = some k → s.store.origins[k]? = some origin →
    ∃ accountId, s.noted = some accountId ∧ origin.accountId = trim accountId

theorem names_note (h : NamesLast sha256 localKeyId sessionId s) (accountId : String)
    (nowMs : Nat) (received : List (List UInt8 × String)) :
    NamesLast sha256 localKeyId sessionId
      { store := (s.store.note sha256 localKeyId sessionId accountId nowMs).1, received,
        noted := notedAfter s accountId } := by
  intro k origin hkey horigin
  rw [note, hkey] at horigin
  dsimp only at horigin
  rw [notedAfter]
  split at horigin
  case isTrue hblank =>
    rw [if_pos hblank]
    exact h k origin hkey horigin
  case isFalse hblank =>
    rw [ExtTreeMap.getElem?_insert_self] at horigin
    cases horigin
    rw [if_neg hblank]
    exact ⟨accountId, rfl, rfl⟩

variable {store : CodexTurnStateStore} {headers upstream : HeaderMap}

theorem relay_cases (hsession : clientSessionId headers = some sessionId) :
    relayAccountResponseHeader sha256 store localKeyId headers accountId upstream nowMs = (none, store) ∨
      ∃ value, relayAccountResponseHeader sha256 store localKeyId headers accountId upstream nowMs =
        (some value, (store.note sha256 localKeyId sessionId accountId nowMs).1) := by
  rw [relayAccountResponseHeader]
  split
  case h_1 => exact .inl rfl
  case h_2 state hstate =>
    rw [hsession]
    dsimp only
    split
    case isTrue => exact .inl rfl
    case isFalse => exact .inr ⟨state, rfl⟩

theorem noted_cases (hsession : clientSessionId headers = some sessionId) :
    noteAccountResponseHeader sha256 store localKeyId headers accountId upstream nowMs =
      if (upstream.get codexTurnStateHeader).all List.isEmpty then store
      else (store.note sha256 localKeyId sessionId accountId nowMs).1 := by
  rw [noteAccountResponseHeader]
  cases upstream.get codexTurnStateHeader with
  | none => rfl
  | some state =>
    rw [hsession]
    rfl

variable {event : TurnEvent}

/-- Every event of the session keeps the origin with the account noted last. -/
theorem names_step (h : NamesLast sha256 localKeyId sessionId s) (hevent : Echoes sessionId s event) :
    NamesLast sha256 localKeyId sessionId (s.step sha256 localKeyId event) := by
  cases event with
  | request nowMs headers accountId =>
    intro k origin hkey horigin
    refine h k origin hkey ?_
    rw [TurnSession.step, guardAccountRequest] at horigin
    split at horigin
    case isTrue => exact horigin
    case isFalse =>
      rw [hevent.1 headers rfl] at horigin
      dsimp only at horigin
      split at horigin <;> dsimp only at horigin <;> exact origins_belongsToAccount horigin
  | response nowMs headers accountId upstream =>
    rw [TurnSession.step]
    rcases relay_cases (hevent.1 headers rfl) with hrelay | ⟨value, hrelay⟩
    · rw [hrelay]
      exact h
    · rw [hrelay]
      exact names_note h accountId nowMs _
  | connected nowMs headers accountId upstream =>
    have hsession := hevent.1 headers rfl
    rw [TurnSession.step, noted_cases hsession, hsession, Option.isNone_some, Bool.or_false]
    cases (upstream.get codexTurnStateHeader).all List.isEmpty with
    | true => exact h
    | false => exact names_note h accountId nowMs _
  | sweep nowMs =>
    intro k origin hkey horigin
    exact h k origin hkey (origins_sweep horigin)

variable {accounts : Set String}

/-- A request that echoes values of the account noted last is forwarded to that account, or without
them. -/
theorem contained_of_echoesLast (hdistinct : accounts.InjOn trim) (h : NamesLast sha256 localKeyId sessionId s)
    (hevent : Echoes sessionId s event) (hlast : EchoesLast s event)
    (hreceived : ∀ entry ∈ s.received, entry.2 ∈ accounts)
    (haccount : ∀ accountId ∈ event.accountId, accountId ∈ accounts) :
    Contained sha256 localKeyId s event := by
  cases event with
  | request nowMs headers accountId =>
    intro value hvalue issuer hissuer
    obtain ⟨hechoed, howned⟩ := forwarded_owned (hevent.1 headers rfl) hvalue
    obtain ⟨k, origin, hkey, horigin, -, howner⟩ := belongsToAccount_iff.mp howned
    obtain ⟨last, hnoted, hnamed⟩ := h k origin hkey horigin
    cases (hlast value hechoed issuer hissuer).symm.trans hnoted
    exact hdistinct (hreceived _ hissuer) (haccount accountId rfl) (hnamed.symm.trans howner)
  | _ => trivial

theorem received_step (h : ∀ entry ∈ s.received, entry.2 ∈ accounts)
    (haccount : ∀ accountId ∈ event.accountId, accountId ∈ accounts) :
    ∀ entry ∈ (s.step sha256 localKeyId event).received, entry.2 ∈ accounts := by
  cases event with
  | response nowMs headers accountId upstream =>
    rw [TurnSession.step]
    split
    case h_1 => exact h
    case h_2 =>
      intro entry hentry
      rcases List.mem_append.mp hentry with hold | hnew
      · exact h entry hold
      · cases List.mem_singleton.mp hnew
        exact haccount accountId rfl
  | connected nowMs headers accountId upstream =>
    rw [TurnSession.step]
    split <;> exact h
  | _ => exact h

/-- In every run of a session in which the client echoes only values of the account noted last, and the
ids of the accounts differ in more than surrounding white space, no forwarded value was issued by
another account. -/
theorem turnStates_contained {accounts : Set String} (hdistinct : accounts.InjOn trim)
    {events : List TurnEvent}
    (haccounts : ∀ event ∈ events, ∀ accountId ∈ event.accountId, accountId ∈ accounts)
    (hechoes : StepsMeet (TurnSession.step sha256 localKeyId) (Echoes sessionId) {} events)
    (hlast : StepsMeet (TurnSession.step sha256 localKeyId) EchoesLast {} events) :
    StepsMeet (TurnSession.step sha256 localKeyId) (Contained sha256 localKeyId) {} events := by
  have hwithin : StepsMeet (TurnSession.step sha256 localKeyId)
      (fun _ event => ∀ accountId ∈ event.accountId, accountId ∈ accounts) {} events :=
    StepsMeet.of_cuts fun before event after heq =>
      haccounts event (heq ▸ List.mem_append_right before List.mem_cons_self)
  -- The invariant of the run: the store names the account noted last, and the values are of `accounts`.
  refine StepsMeet.of_invariant (I := fun s => NamesLast sha256 localKeyId sessionId s ∧
    ∀ entry ∈ s.received, entry.2 ∈ accounts) ?_ ?_ ?_ ((hechoes.and hlast).and hwithin)
  · rintro s event ⟨hnames, hreceived⟩ ⟨⟨hevent, -⟩, haccount⟩
    exact ⟨names_step hnames hevent, received_step hreceived haccount⟩
  · rintro s event ⟨hnames, hreceived⟩ ⟨⟨hevent, hlast⟩, haccount⟩
    exact contained_of_echoesLast hdistinct hnames hevent hlast hreceived haccount
  · refine ⟨fun k origin hkey horigin => ?_, fun entry hentry => nomatch hentry⟩
    simp at horigin

/-! A thread of one client. Both accounts answer it with a turn state. -/

/-- The digest of the key of the thread. -/
def threadDigest (_ : List UInt8) : List UInt8 :=
  [0x5b, 0xec, 0xcf, 0x0e, 0x2b, 0xab, 0x36, 0xa8, 0xe1, 0xab, 0x55, 0x9f, 0xc0, 0xe5, 0xa1, 0x3c, 0xe0,
    0x88, 0x39, 0x28, 0x46, 0xbd, 0x7b, 0x40, 0xbc, 0x71, 0x6d, 0x62, 0x4b, 0x82, 0x6a, 0xa3]

def threadHeaders (states : List (List UInt8)) : HeaderMap :=
  ("thread-id", utf8 "thread-1") :: states.map fun state => (codexTurnStateHeader, state)

def stateOf (accountId : String) : List UInt8 := utf8 accountId

def threadRequest (nowMs : Nat) (states : List (List UInt8)) (accountId : String) : TurnEvent :=
  .request nowMs (threadHeaders states) accountId

def threadResponse (nowMs : Nat) (accountId : String) : TurnEvent :=
  .response nowMs (threadHeaders []) accountId [(codexTurnStateHeader, stateOf accountId)]

theorem session_thread : (clientSessionId (threadHeaders []) = some "thread-1" ∧
    (threadHeaders []).getAll codexTurnStateHeader = []) ∧
    clientSessionId (threadHeaders [stateOf "a"]) = some "thread-1" ∧
    (threadHeaders [stateOf "a"]).getAll codexTurnStateHeader = [stateOf "a"] := by
  decide +kernel

theorem echoes_thread :
    Echoes "thread-1" s (threadRequest nowMs [] accountId) ∧
      Echoes "thread-1" s (threadResponse nowMs accountId) := by
  refine ⟨⟨?_, ?_⟩, ?_, trivial⟩
  · rintro _ ⟨⟩
    exact session_thread.1.1
  · intro value hvalue
    rw [session_thread.1.2] at hvalue
    exact nomatch hvalue
  · rintro _ ⟨⟩
    exact session_thread.1.1

variable {accountId issuer : String}

theorem echoes_own (h : (stateOf "a", issuer) ∈ s.received) :
    Echoes "thread-1" s (threadRequest nowMs [stateOf "a"] accountId) := by
  refine ⟨?_, fun value hvalue => ?_⟩
  · rintro _ ⟨⟩
    exact session_thread.2.1
  · rw [session_thread.2.2, List.mem_singleton] at hvalue
    exact ⟨issuer, hvalue ▸ h⟩

theorem turnStates_contained_echo :
    StepsMeet (TurnSession.step threadDigest "key-1") (Contained threadDigest "key-1") {}
      [threadResponse 1 "a", threadRequest 2 [stateOf "a"] "a"] := by
  have hreceived : (TurnSession.step threadDigest "key-1" {} (threadResponse 1 "a")).received =
      [(stateOf "a", "a")] ∧
      (TurnSession.step threadDigest "key-1" {} (threadResponse 1 "a")).noted = some "a" := by
    decide +kernel
  refine @turnStates_contained threadDigest "key-1" "thread-1" {"a"} (Set.injOn_singleton trim "a")
    _ ?_ ⟨echoes_thread.2, @echoes_own _ 2 "a" "a" ?_, trivial⟩ ⟨trivial, ?_, trivial⟩
  · intro event hevent accountId haccount
    simp only [List.mem_cons, List.not_mem_nil, or_false] at hevent
    rcases hevent with rfl | rfl <;> exact (Option.some.inj haccount).symm
  · rw [hreceived.1]
    exact List.mem_singleton_self _
  · intro value hvalue issuer hissuer
    rw [hreceived.1, List.mem_singleton] at hissuer
    cases hissuer
    exact hreceived.2

/-- A value of another account leaks as soon as it is echoed in a request to the live owner. -/
theorem older_value_leaks {value : List UInt8} (hsession : clientSessionId headers = some sessionId)
    (howned : (s.store.belongsToAccount sha256 localKeyId sessionId accountId nowMs).1 = true)
    (hvalue : value ∈ headers.getAll codexTurnStateHeader) (hissuer : (value, issuer) ∈ s.received)
    (hother : issuer ≠ accountId) :
    ¬ Contained sha256 localKeyId s (.request nowMs headers accountId) := by
  intro h
  refine hother (h value ?_ issuer hissuer)
  rw [forwarded_of_owned hsession howned]
  exact hvalue

/-- Two requests of the thread overlap, and account `b` answers last. The client then echoes the value of
account `a`, and the request is routed to `b`. -/
def overlap : List TurnEvent :=
  [threadRequest 1 [] "a", threadRequest 2 [] "b", threadResponse 3 "a", threadResponse 4 "b"]

theorem overlapping_turns_leak : ¬ ∀ (sha256 : List UInt8 → List UInt8) (localKeyId sessionId : String)
    (events : List TurnEvent),
      StepsMeet (TurnSession.step sha256 localKeyId) (Echoes sessionId) {} events →
        StepsMeet (TurnSession.step sha256 localKeyId) (Contained sha256 localKeyId) {} events := by
  intro h
  have ⟨hreceived, howned⟩ : (stateOf "a", "a") ∈
      (run (TurnSession.step threadDigest "key-1") {} overlap).received ∧
      ((run (TurnSession.step threadDigest "key-1") {} overlap).store.belongsToAccount
        threadDigest "key-1" "thread-1" "b" 5).1 = true := by decide +kernel
  have hechoes : StepsMeet (TurnSession.step threadDigest "key-1") (Echoes "thread-1") {}
      (overlap ++ [threadRequest 5 [stateOf "a"] "b"]) := by
    refine StepsMeet.append.mpr ⟨?_, echoes_own hreceived, trivial⟩
    exact ⟨echoes_thread.1, echoes_thread.1, echoes_thread.2, echoes_thread.2, trivial⟩
  have hcontained := (StepsMeet.append.mp (h threadDigest "key-1" "thread-1" _ hechoes)).2.1
  have hechoed : stateOf "a" ∈ (threadHeaders [stateOf "a"]).getAll codexTurnStateHeader :=
    session_thread.2.2 ▸ List.mem_singleton_self _
  exact older_value_leaks session_thread.2.1 howned hechoed hreceived (by decide) hcontained

end

end Zenith.Gateway
