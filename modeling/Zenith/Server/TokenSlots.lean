import Zenith.Accounts.TokenDurability
import Zenith.Server.AccountImports

/-!
# Token slots and the vault

The tokens of one account are in the slot of the token authority and, with its credential, in the vault
(`token_refresh.rs`, `build_accounts` of `app/runtime_build.rs`, the end of `confirm_one_account_import`). Calls on the
slot persist what they refresh; runtime rebuilds load the credential and then put its tokens into the slot; imports
point the record at another credential. All of them interleave.

`rebuilds_keep_tokens`: the slot has what was persisted last, as long as no rebuild puts in what was rotated after it
was loaded.

Confirmations of the account follow one another; those that overlap are in `ImportSecrets`.
-/

namespace Zenith.Server

open Std Zenith.Accounts Zenith.LockedTasks Zenith.Runs Zenith.Tables Zenith.Text

namespace StoredCredential

/-- `AccountCredential::tokens` -/
def tokens (credential : StoredCredential) : Except String TokenSet :=
  TokenSet.new credential.accessToken credential.refreshToken credential.idToken credential.expiresAtMs credential.issuedAtMs
    (credential.generation % 2 ^ 64) (Nat.mod_lt _ (by decide))

/-- The tokens that a rebuild registers. -/
def oauthTokens (credential : StoredCredential) : Option TokenSet :=
  if credential.hasOauth then credential.tokens.toOption else none

/-- What `ServerTokenPersistence::persist` writes over a credential. -/
def withTokens (credential : StoredCredential) (tokens : TokenSet) : StoredCredential :=
  { credential with
    accessToken := tokens.accessToken
    refreshToken := tokens.refreshToken
    idToken := tokens.idToken
    expiresAtMs := tokens.expiresAtMs
    issuedAtMs := tokens.issuedAtMs
    generation := tokens.generation }

theorem nonempty_of_notBlank {token : Option String} (h : NotBlank token) : Accounts.nonempty token = token := by
  cases token with
  | none => rfl
  | some value => exact Option.filter_eq_some_iff.mpr ⟨rfl, decide_eq_true (h value rfl)⟩

/-- Tokens are read as they were written. -/
theorem tokens_withTokens (credential : StoredCredential) (tokens : TokenSet) :
    (credential.withTokens tokens).tokens = .ok tokens := by
  obtain ⟨accessToken, refreshToken, idToken, expiresAtMs, issuedAtMs, generation, haccess, hrefresh, hid, hgeneration⟩ := tokens
  unfold StoredCredential.tokens withTokens TokenSet.new
  rw [dif_neg haccess]
  congr 1
  rw [TokenSet.mk.injEq]
  exact ⟨rfl, nonempty_of_notBlank hrefresh, nonempty_of_notBlank hid, rfl, rfl, Nat.mod_eq_of_lt hgeneration⟩

end StoredCredential

/-- A rebuild on its way to the account's slot. -/
inductive TokenRebuild
  | found (secretRef : String) (authState : AccountAuthState)
  | loaded (secretRef origin : String) (tokens : TokenSet) (authState : AccountAuthState)
  | finished

/-- The account's slot with the calls on it, its record and its credentials. The rest is history. A reference stands for
the import that it was made for: `origins` has the import that the tokens under a reference go back to, `slotOrigin`
the one that the tokens of the slot go back to, and `slotRef` is where these were loaded from. -/
structure TokenSystem where
  slot : SlotConfig
  secretRef : String
  authState : AccountAuthState
  vault : Table String StoredCredential
  /-- Where the call that persists tokens is going to write them. -/
  located : Option String := none
  rebuilds : List TokenRebuild := []
  sessions : List (String × AccountAuthState) := []
  /-- The reference that a confirmation is going to delete. -/
  replaced : Option String := none
  slotRef : String
  slotOrigin : String
  origins : Table String String

inductive TokenStep
  /-- `prepare_and_persist`, of a request, a quota refresh or a probe. -/
  | prepare (nowMs refreshSkewMs : Nat)
  | invalidate (failedGeneration : Option Nat) (nowMs : Nat)
  /-- The call goes on: the provider's answer, or whether a write to the vault or the store succeeds. -/
  | answer (saves : Bool) (refreshed : Except TokenRefreshFailure TokenRefresh)
  | abandon
  | rebuild
  /-- The next step of a rebuild: it loads the credential, and then waits for the slot. -/
  | next (rebuild : Nat)
  | preview (secretRef : String) (credential : StoredCredential) (authState : AccountAuthState)
  | commit (secretRef : String)
  | delete

namespace TokenSystem

variable (s : TokenSystem)

def rebuildTask (i : Nat) : TokenRebuild := s.rebuilds[i]?.getD .finished

def answers (persisted : Except TokenPersistenceFailure Unit) (refreshed : Except TokenRefreshFailure TokenRefresh) :
    (request : Request) → request.Answer
  | .persist _ => persisted
  | .persistAuthState _ => persisted
  | .refresh _ _ => refreshed

def respond (persisted : Except TokenPersistenceFailure Unit) (refreshed : Except TokenRefreshFailure TokenRefresh) : TokenSystem :=
  { s with slot := slotStep s.slot (.respond (answers persisted refreshed)), located := none }

/-- `persist` finds the record, and then changes the credential under its reference. -/
def persist (tokens : TokenSet) (saves : Bool) (refreshed : Except TokenRefreshFailure TokenRefresh) : TokenSystem :=
  match s.located with
  | none => { s with located := some s.secretRef }
  | some secretRef =>
    match s.vault[secretRef]? with
    | none => s.respond (.error ⟨"secret_missing"⟩) refreshed
    | some credential =>
      if saves then
        { s with
          vault := s.vault.insert secretRef (credential.withTokens tokens)
          origins := s.origins.insert secretRef s.slotOrigin }.respond (.ok ()) refreshed
      else s.respond (.error ⟨"persist_failed"⟩) refreshed

def answer (saves : Bool) (refreshed : Except TokenRefreshFailure TokenRefresh) : TokenSystem :=
  match s.slot.holder with
  | none => s
  | some ⟨_, .persist tokens, _⟩ => s.persist tokens saves refreshed
  | some ⟨_, .persistAuthState authState, _⟩ =>
    if saves then { s with authState }.respond (.ok ()) refreshed else s.respond (.error ⟨"persist_failed"⟩) refreshed
  | some ⟨_, .refresh _ _, _⟩ => s.respond (.ok ()) refreshed

/-- The part of `build_accounts` that concerns the account. -/
def nextOfRebuild (i : Nat) : TokenSystem :=
  match s.rebuildTask i with
  | .found secretRef authState =>
    match (s.vault[secretRef]?).bind StoredCredential.oauthTokens with
    | none => { s with rebuilds := s.rebuilds.set i .finished }
    | some tokens => { s with rebuilds := s.rebuilds.set i (.loaded secretRef ((s.origins[secretRef]?).getD secretRef) tokens authState) }
  | .loaded secretRef origin tokens authState =>
    -- `TokenAuthority::register` waits for the lock of the slot.
    match s.slot.holder with
    | some _ => s
    | none =>
      { s with
        slot := { s.slot with shared := TokenSlot.register tokens authState }
        rebuilds := s.rebuilds.set i .finished
        slotRef := secretRef
        slotOrigin := origin }
  | .finished => s

def step : TokenStep → TokenSystem
  | .prepare nowMs refreshSkewMs => { s with slot := slotStep s.slot (.acquire (.prepareAndPersist nowMs refreshSkewMs)) }
  | .invalidate failedGeneration nowMs => { s with slot := slotStep s.slot (.acquire (.invalidate failedGeneration nowMs)) }
  | .answer saves refreshed => s.answer saves refreshed
  | .abandon => { s with slot := slotStep s.slot .abandon, located := none }
  | .rebuild => { s with rebuilds := s.rebuilds ++ [.found s.secretRef s.authState] }
  | .next i => s.nextOfRebuild i
  | .preview secretRef credential authState =>
    if (s.vault[secretRef]?).isSome || s.secretRef = secretRef || (s.origins[secretRef]?).isSome then s
    else
      { s with
        vault := s.vault.insert secretRef credential
        sessions := (secretRef, authState) :: s.sessions
        origins := s.origins.insert secretRef secretRef }
  | .commit secretRef =>
    match s.replaced, s.sessions.find? (·.1 = secretRef) with
    | none, some session =>
      { s with
        secretRef
        authState := session.2
        sessions := s.sessions.filter (·.1 ≠ secretRef)
        replaced := some s.secretRef }
    | _, _ => s
  | .delete =>
    match s.replaced with
    | none => s
    | some secretRef => { s with vault := s.vault.erase secretRef, replaced := none }

end TokenSystem

/-- The account with its credential, right after its registration. -/
def TokenSystem.start (secretRef : String) (credential : StoredCredential) (tokens : TokenSet) (authState : AccountAuthState) :
    TokenSystem where
  slot := { shared := TokenSlot.register tokens authState }
  secretRef
  authState
  vault := (∅ : Table String StoredCredential).insert secretRef credential
  slotRef := secretRef
  slotOrigin := secretRef
  origins := (∅ : Table String String).insert secretRef secretRef

/-! ## Without imports -/

namespace TokenStep

/-- The step is part of an import. -/
def imports : TokenStep → Bool
  | preview .. | commit _ | delete => true
  | _ => false

end TokenStep

namespace TokenSystem

/-- While no call is on the slot, it has the tokens that were persisted last, unless it has newer ones still to be
persisted; and it has the refresh token that was received last. -/
structure HoldsPersisted (registered : TokenSet) (s : TokenSystem) : Prop where
  persisted : s.slot.holder = none → s.slot.shared.persistencePending = false →
    (s.vault[s.secretRef]?).map (·.tokens) = some (.ok s.slot.shared.tokens)
  held : s.slot.holder = none → s.slot.shared.tokens.refreshToken = heldRefreshToken registered s.slot.log

/-- A rebuild that gets the slot has loaded what is persisted now, and the slot has nothing that is still to be
persisted. -/
def RegistersPersisted (s : TokenSystem) : TokenStep → Prop
  | .next i =>
    match s.rebuildTask i with
    | .loaded _ _ tokens _ => s.slot.holder.isNone = true →
        (s.vault[s.secretRef]?).map (·.tokens) = some (.ok tokens) ∧ s.slot.shared.persistencePending = false
    | _ => True
  | _ => True

/-- What holds of the slot and its log, and of the credential that is stored. -/
structure TokensInOrder (registered : TokenSet) (s : TokenSystem) : Prop where
  fine : s.slot.Fine anyAnswer Newer (Durable registered) (Durable registered)
  stored : (s.vault[s.secretRef]?).map (·.tokens) = some (.ok (persistedTokens registered s.slot.log))
  located : ∀ secretRef, s.located = some secretRef → secretRef = s.secretRef

section
variable {registered : TokenSet} {s s' : TokenSystem}

/-- A call that goes on to its next wait persists nothing by itself. -/
theorem persistedTokens_advance (call : SlotCall) (task : Task TokenSlot Request Request.Answer SlotResult) (slot : TokenSlot) (log : Log) :
    persistedTokens registered (advance call task slot log).log = persistedTokens registered log := by
  induction task generalizing slot log with
  | done result =>
    show persistedTokens registered (log ++ [_]) = _
    rw [persistedTokens, List.foldl_concat]
    rfl
  | get k ih => exact ih slot slot log
  | set slot' k ih => exact ih slot' log
  | await request k _ =>
    show persistedTokens registered (log ++ [_]) = _
    rw [persistedTokens, List.foldl_concat]
    rfl

theorem TokensInOrder.durable (h : s.TokensInOrder registered) : Durable registered s.slot.shared s.slot.log := Fine.durable h.fine

theorem TokensInOrder.holdsPersisted (h : s.TokensInOrder registered) : s.HoldsPersisted registered where
  persisted _ hpending := h.durable.settled hpending ▸ h.stored
  held _ := h.durable.held

/-- An answer to the call that is on the slot. -/
theorem TokensInOrder.respond (h : s.TokensInOrder registered) {holder} (hholder : s.slot.holder = some holder)
    (persisted : Except TokenPersistenceFailure Unit) (refreshed : Except TokenRefreshFailure TokenRefresh)
    (hslot : s'.slot = s.slot) (hstored : (s'.vault[s'.secretRef]?).map (·.tokens) = some (.ok (persistedTokens registered
      (s.slot.log ++ [.answered holder.request (answers persisted refreshed holder.request) s.slot.shared])))) :
    (s'.respond persisted refreshed).TokensInOrder registered where
  fine := by
    show (slotStep s'.slot _).Fine _ _ _ _
    rw [hslot]
    refine (fine_step newer_refl (safe_persisting registered) (fun (_ : True) _ _ hdurable => hdurable) h.fine ?_).1
    exact fun _ => trivial
  stored := by
    show (s'.vault[s'.secretRef]?).map (·.tokens) = some (.ok (persistedTokens registered (slotStep s'.slot _).log))
    rw [hslot, hstored]
    unfold slotStep LockedTasks.step
    rw [hholder]
    dsimp only
    rw [persistedTokens_advance]
  located _ heq := nomatch heq

/-- What was said about the account's state, and failures, say nothing about the tokens. -/
theorem TokensInOrder.respond_plain (h : s.TokensInOrder registered) {holder} (hholder : s.slot.holder = some holder)
    {persisted : Except TokenPersistenceFailure Unit} {refreshed : Except TokenRefreshFailure TokenRefresh}
    (hslot : s'.slot = s.slot) (hvault : s'.vault = s.vault) (hsecretRef : s'.secretRef = s.secretRef)
    (hkept : ∀ slot, persistedTokens registered (s.slot.log ++ [.answered holder.request (answers persisted refreshed holder.request) slot]) =
      persistedTokens registered s.slot.log) : (s'.respond persisted refreshed).TokensInOrder registered :=
  h.respond hholder persisted refreshed hslot (by rw [hvault, hsecretRef, hkept, h.stored])

theorem inOrder_answer (h : s.TokensInOrder registered) (saves : Bool) (refreshed : Except TokenRefreshFailure TokenRefresh) :
    (s.answer saves refreshed).TokensInOrder registered := by
  unfold TokenSystem.answer
  split
  case h_1 => exact h
  case h_2 call tokens resume hholder =>
    unfold TokenSystem.persist
    split
    case h_1 => exact ⟨h.fine, h.stored, fun _ heq => (Option.some.inj heq).symm⟩
    case h_2 secretRef hlocated =>
      obtain rfl := h.located secretRef hlocated
      split
      case h_1 => exact h.respond_plain hholder rfl rfl rfl fun _ => (List.foldl_concat _ _ _ _).trans rfl
      case h_2 credential hcredential =>
        split
        case isTrue =>
          refine h.respond hholder (.ok ()) refreshed rfl ?_
          show ((s.vault.insert s.secretRef (credential.withTokens tokens))[s.secretRef]?).map (·.tokens) = _
          rw [getElem?_insert_ite, if_pos rfl, persistedTokens, List.foldl_concat]
          exact congrArg some (credential.tokens_withTokens tokens)
        case isFalse => exact h.respond_plain hholder rfl rfl rfl fun _ => (List.foldl_concat _ _ _ _).trans rfl
  case h_3 call authState resume hholder =>
    split
    case isTrue => exact h.respond_plain hholder rfl rfl rfl fun _ => (List.foldl_concat _ _ _ _).trans rfl
    case isFalse => exact h.respond_plain hholder rfl rfl rfl fun _ => (List.foldl_concat _ _ _ _).trans rfl
  case h_4 call refreshToken nowMs resume hholder => exact h.respond_plain hholder rfl rfl rfl fun _ => (List.foldl_concat _ _ _ _).trans rfl

theorem inOrder_nextOfRebuild (h : s.TokensInOrder registered) (i : Nat) (hok : s.RegistersPersisted (.next i)) :
    (s.nextOfRebuild i).TokensInOrder registered := by
  unfold TokenSystem.nextOfRebuild
  unfold RegistersPersisted at hok
  dsimp only at hok
  cases htask : s.rebuildTask i with
  | found secretRef authState =>
    dsimp only
    split
    · exact ⟨h.fine, h.stored, h.located⟩
    · exact ⟨h.fine, h.stored, h.located⟩
  | loaded secretRef origin tokens authState =>
    rw [htask] at hok
    dsimp only at hok ⊢
    cases hholder : s.slot.holder with
    | some holder => exact h
    | none =>
      -- What is put into the slot is what the slot has.
      obtain ⟨hstored, hpending⟩ := hok (by rw [hholder]; rfl)
      have heq : tokens = s.slot.shared.tokens := by
        rw [h.durable.settled hpending]
        exact Except.ok.inj (Option.some.inj (hstored.symm.trans h.stored))
      have hfine : ({ shared := TokenSlot.register tokens authState, log := s.slot.log } : SlotConfig).Fine anyAnswer Newer
          (Durable registered) (Durable registered) := h.durable.view heq hpending.symm
      exact ⟨hfine, h.stored, h.located⟩
  | finished => exact h

theorem inOrder_step (h : s.TokensInOrder registered) (op : TokenStep) (himports : op.imports = false) (hok : s.RegistersPersisted op) :
    (s.step op).TokensInOrder registered := by
  have hcall : ∀ call : SlotCall, call.Persists → ({ s with slot := slotStep s.slot (.acquire call) } : TokenSystem).TokensInOrder registered := by
    intro call hpersists
    refine ⟨?_, ?_, h.located⟩
    · refine (fine_step newer_refl (safe_persisting registered) (fun (_ : True) _ _ hdurable => hdurable) h.fine ?_).1
      exact hpersists
    · show (s.vault[s.secretRef]?).map (·.tokens) = some (.ok (persistedTokens registered (slotStep s.slot (.acquire call)).log))
      rw [h.stored]
      unfold slotStep LockedTasks.step
      cases s.slot.holder with
      | none =>
        dsimp only
        rw [persistedTokens_advance]
      | some holder => rfl
  cases op with
  | prepare nowMs refreshSkewMs => exact hcall _ trivial
  | invalidate failedGeneration nowMs => exact hcall _ trivial
  | answer saves refreshed => exact inOrder_answer h saves refreshed
  | abandon =>
    refine ⟨?_, h.stored, fun _ heq => nomatch heq⟩
    show (slotStep s.slot .abandon).Fine _ _ _ _
    refine (fine_step newer_refl (safe_persisting registered) (fun (_ : True) _ _ hdurable => hdurable) h.fine ?_).1
    exact trivial
  | rebuild => exact ⟨h.fine, h.stored, h.located⟩
  | next i => exact inOrder_nextOfRebuild h i hok
  | preview secretRef credential authState => exact nomatch himports
  | commit secretRef => exact nomatch himports
  | delete => exact nomatch himports

end

end TokenSystem

/-- Without imports, the slot has what was persisted last, and the refresh token that was received last, whenever no
call is on it, as long as every rebuild that gets the slot has loaded what is persisted then and the slot has nothing
that is still to be persisted. -/
theorem rebuilds_keep_tokens (secretRef : String) (credential : StoredCredential) (tokens : TokenSet) (authState : AccountAuthState)
    (htokens : credential.tokens = .ok tokens) (ops : List TokenStep) (himports : ∀ op ∈ ops, op.imports = false)
    (hok : StepsMeet TokenSystem.step TokenSystem.RegistersPersisted (.start secretRef credential tokens authState) ops) :
    ∀ before after, ops = before ++ after →
      (run TokenSystem.step (.start secretRef credential tokens authState) before).HoldsPersisted tokens := by
  rintro before after rfl
  have hstart : (TokenSystem.start secretRef credential tokens authState).TokensInOrder tokens := by
    refine ⟨durable_register tokens authState, ?_, fun _ heq => nomatch heq⟩
    show (((∅ : Table String StoredCredential).insert secretRef credential)[secretRef]?).map (·.tokens) = _
    rw [getElem?_insert_ite, if_pos rfl]
    exact congrArg some htokens
  have hsteps : StepsMeet TokenSystem.step (fun s op => op.imports = false ∧ s.RegistersPersisted op)
      (.start secretRef credential tokens authState) before := by
    have hmeets := (StepsMeet.append.mp hok).1
    clear hok
    revert hmeets
    generalize TokenSystem.start secretRef credential tokens authState = s
    intro hmeets
    induction before generalizing s with
    | nil => trivial
    | cons op before ih =>
      exact ⟨⟨himports op List.mem_cons_self, hmeets.1⟩, ih (fun op hmem => himports op (List.mem_cons_of_mem _ hmem)) _ hmeets.2⟩
  exact (run_invariant (I := TokenSystem.TokensInOrder tokens)
    (fun s op h hok => TokenSystem.inOrder_step h op hok.1 hok.2) hstart hsteps).holdsPersisted

/-! ## A rebuild that overtakes a refresh -/

/-- The refresh token that the call on the slot presents. -/
def TokenSystem.presents (s : TokenSystem) : Option String :=
  match s.slot.holder with
  | some ⟨_, .refresh refreshToken _, _⟩ => some refreshToken
  | _ => none

def sampleStoredCredential : StoredCredential := ({ issuedAtMs := 0 } : StoredCredential).withTokens sampleTokens

def sampleSystem : TokenSystem := .start "secret-1" sampleStoredCredential sampleTokens .active

/-- A call refreshes the tokens, persists them and the account's state. -/
def refreshed : List TokenStep := .prepare 10 0 :: List.replicate 4 (.answer true (.ok sampleRefresh))

theorem rebuilds_keep_tokens_sample :
    (run TokenSystem.step sampleSystem (refreshed ++ [.rebuild, .next 0, .next 0])).HoldsPersisted sampleTokens := by
  refine rebuilds_keep_tokens "secret-1" sampleStoredCredential sampleTokens .active (StoredCredential.tokens_withTokens _ _)
    (refreshed ++ [.rebuild, .next 0, .next 0]) (by decide +kernel) ?_ _ [] (List.append_nil _).symm
  exact ⟨trivial, trivial, trivial, trivial, trivial, trivial, trivial, fun _ => ⟨rfl, rfl⟩, trivial⟩

/-- The rebuild has loaded the credential before the refresh, and gets the slot after it. -/
def outdatedRebuild : List TokenStep := [.rebuild, .next 0] ++ refreshed ++ [.next 0]

/-- The refresh token that was rotated is in the slot again, and presented to the provider. -/
theorem stale_rebuild_rolls_back :
    ¬(run TokenSystem.step sampleSystem outdatedRebuild).HoldsPersisted sampleTokens ∧
      (run TokenSystem.step sampleSystem (outdatedRebuild ++ [.prepare 10 0])).presents = some "refresh" := by
  refine ⟨fun h => ?_, by decide +kernel⟩
  have hheld := h.held rfl
  exact absurd hheld (by decide +kernel)

end Zenith.Server
