import Zenith.Server.AccountImports

/-!
# Import sessions side by side

Previews, confirmations and clean-ups as tasks whose calls to the store and the vault interleave in any way. The ids
that a preview draws are new.

Two things go wrong. A duplicate is looked for by the preview only, so two previews of one identity make two accounts
(`one_account_per_identity_iff`). And a confirmation acts on what it has read: on the record whose secret it deletes
in the end, on the session's age, on its own record after a probe (`imports_keep_secrets`).
-/

namespace Zenith.Server

open Std Zenith.Accounts Zenith.Records Zenith.Runs Zenith.Tables Zenith.Text

/-- What a probe makes of a record, and what a failed one does: its id and its settings are kept. -/
structure MetadataUpdate where
  apply : ServerAccountRecord → ServerAccountRecord
  id : ∀ record, (apply record).id = record.id
  settings : ∀ record, (apply record).toAccountSettings = record.toAccountSettings

/-- A call under way, by what it does next. -/
inductive ImportTask
  /-- A preview has looked for the account, and loads its credential. -/
  | loading (call : PreviewCall) (hint : String) (duplicate : Option ImportedAccount)
  | saving (pending : PendingImport) (credential : String)
  | recording (pending : PendingImport)
  /-- A confirmation has found its session, and looks for the account. -/
  | matched (pending : PendingImport) (addToPool : Bool)
  | building (record : ImportedAccount) (sessionId : String) (previousRef : Option String)
  /-- The account is stored; a probe may store it again. -/
  | committed (record : ImportedAccount) (previousRef : Option String)
  | expired (pending : PendingImport)
  | discarding (secretRefs : List String)
  | finished

/-- The store, the vault and the calls under way. The rest is history: the ids that were made for new accounts with
their hints, the references that were drawn with their sessions, the references that were recorded, the credentials
that were stored, and the reference of the last session that was confirmed for each account. -/
structure ImportSystem where
  accounts : RecordTable ImportedAccount (·.id.text) := .empty
  pending : RecordTable PendingImport PendingImport.id := .empty
  vault : Table String String := ∅
  tasks : List ImportTask := []
  hints : Table String String := ∅
  sessions : Table String String := ∅
  recorded : List String := []
  credentials : Table String String := ∅
  confirmed : Table String String := ∅

inductive ImportStep
  | preview (call : PreviewCall)
  | cleanup (nowMs : Nat)
  | confirm (sessionId : String) (batchSessionId : Option String) (addToPool : Bool) (nowMs : Nat)
  /-- The next call of a task to the store or the vault. -/
  | next (task : Nat) (nowMs : Nat)
  /-- A probe, or the end of a failed one, stores the record. -/
  | update (task : Nat) (update : MetadataUpdate)

def importLifetimeMs : Nat := 30 * 60 * 1000

namespace ImportSystem

variable (parts : ImportParts) (s : ImportSystem)

def task (i : Nat) : ImportTask := s.tasks[i]?.getD .finished

def spawn (task : ImportTask) : ImportSystem := { s with tasks := s.tasks ++ [task] }

def become (i : Nat) (task : ImportTask) : ImportSystem := { s with tasks := s.tasks.set i task }

def duplicate (hint : String) : Option ImportedAccount := s.accounts.all.find? (·.identityHint = hint)

/-- Nothing that the preview draws was drawn before. -/
def drawsNew (call : PreviewCall) (duplicate : Option ImportedAccount) : Bool :=
  (duplicate.isSome || (s.hints[call.names.accountId.text]?).isNone) &&
    (s.sessions[call.secretRef duplicate]?).isNone && (valuesOf s.sessions).all (· ≠ call.names.sessionId)

/-- `delete_pending_imports_before` -/
def deletePending (ids : List String) : RecordTable PendingImport PendingImport.id := ids.foldl (·.delete ·) s.pending

def stale (nowMs : Nat) : List PendingImport := s.pending.all.filter (·.createdAtMs < nowMs - importLifetimeMs)

def advance (i nowMs : Nat) : ImportSystem :=
  match s.task i with
  | .loading call _ duplicate =>
    match (duplicate.bind (s.vault[·.secretRef]?)).map parts.decode with
    | some none => s.become i .finished
    | existing =>
      match prepareAccountImport parts call duplicate existing.join with
      | .error _ => s.become i .finished
      | .ok (pending, credential) => s.become i (.saving pending credential)
  | .saving pending credential =>
    { s with
      vault := s.vault.insert pending.secretRef credential
      credentials := s.credentials.insert pending.secretRef credential }.become i (.recording pending)
  | .recording pending =>
    { s with
      pending := s.pending.upsert pending
      recorded := pending.secretRef :: s.recorded }.become i .finished
  | .matched pending addToPool =>
    let existing := s.accounts.get? pending.preview.accountId.text
    s.become i (.building (importedRecord parts pending existing addToPool nowMs) pending.id (existing.map (·.secretRef)))
  | .building record sessionId previousRef =>
    -- `save_account_and_consume_pending_import`
    match s.pending.get? sessionId with
    | none => s.become i .finished
    | some _ =>
      { s with
        accounts := s.accounts.upsert record
        pending := s.pending.delete sessionId
        confirmed := s.confirmed.insert record.id.text record.secretRef }.become i (.committed record previousRef)
  | .committed record previousRef =>
    s.become i (.discarding (previousRef.filter (· ≠ record.secretRef)).toList)
  | .expired pending => { s with pending := s.pending.delete pending.id }.become i (.discarding [pending.secretRef])
  | .discarding [] => s.become i .finished
  | .discarding (secretRef :: secretRefs) =>
    { s with vault := s.vault.erase secretRef }.become i (.discarding secretRefs)
  | .finished => s

def step : ImportStep → ImportSystem
  | .preview call =>
    match cleanIdentifier call.input.chatgptAccountId "account id" with
    | .error _ => s
    | .ok chatgptAccountId =>
      let hint := parts.identityHint chatgptAccountId
      let duplicate := s.duplicate hint
      if s.drawsNew call duplicate then
        { s with
          hints := if duplicate.isSome then s.hints else s.hints.insert call.names.accountId.text hint
          sessions := s.sessions.insert (call.secretRef duplicate) call.names.sessionId }.spawn (.loading call hint duplicate)
      else s
  | .cleanup nowMs =>
    let stale := s.stale nowMs
    { s with pending := s.deletePending (stale.map PendingImport.id) }.spawn (.discarding (stale.map PendingImport.secretRef))
  | .confirm sessionId batchSessionId addToPool nowMs =>
    match s.pending.get? sessionId with
    | none => s
    | some pending =>
      if importLifetimeMs < nowMs - pending.createdAtMs then s.spawn (.expired pending)
      else if pending.preview.batchSessionId ≠ batchSessionId then s
      else s.spawn (.matched pending addToPool)
  | .next i nowMs => s.advance parts i nowMs
  | .update i update =>
    match s.task i with
    | .committed record previousRef =>
      let updated := { record with toServerAccountRecord := update.apply record.toServerAccountRecord }
      { s with accounts := s.accounts.upsert updated }.become i (.committed updated previousRef)
    | _ => s

end ImportSystem

/-! ## One account for each identity -/

namespace ImportSystem

/-- No two stored accounts have the same identity. -/
def OneAccountPerIdentity (s : ImportSystem) : Prop :=
  ∀ id id' account account', s.accounts.get? id = some account → s.accounts.get? id' = some account' →
    account.identityHint = account'.identityHint → id = id'

/-- A commit finds no account of its identity but the one that its preview has found. -/
def CommitsKnown (s : ImportSystem) (op : ImportStep) : Prop :=
  match op with
  | .next i _ =>
    match s.task i with
    | .building record sessionId _ => (s.pending.get? sessionId).isSome = true →
        ∀ other ∈ s.accounts.all, other.identityHint = record.identityHint → other.id.text = record.id.text
    | _ => True
  | _ => True

/-- The account with the id was made for the identity. -/
def Names (s : ImportSystem) (id : RecordId) (hint : String) : Prop := s.hints[id.text]? = some hint

/-- What a task knows of the identity of its account. -/
def Agrees (parts : ImportParts) (s : ImportSystem) : ImportTask → Prop
  | .loading call hint duplicate => s.Names (call.accountId duplicate) hint ∧
      (cleanIdentifier call.input.chatgptAccountId "account id").map parts.identityHint = .ok hint
  | .saving pending _ | .recording pending | .matched pending _ | .expired pending =>
    s.Names pending.preview.accountId pending.preview.identityHint
  | .building record _ _ => s.Names record.id record.identityHint
  | .committed record _ => s.Names record.id record.identityHint ∧ (s.accounts.get? record.id.text).isSome = true
  | .discarding _ | .finished => True

/-- Accounts, sessions and tasks agree on the identity of an account. -/
structure Identified (parts : ImportParts) (s : ImportSystem) : Prop where
  accounts : ∀ id account, s.accounts.get? id = some account → s.Names account.id account.identityHint
  pending : ∀ id pending, s.pending.get? id = some pending → s.Names pending.preview.accountId pending.preview.identityHint
  tasks : ∀ task ∈ s.tasks, s.Agrees parts task

section
variable {parts : ImportParts} {s s' : ImportSystem}

variable {task : ImportTask}

theorem task_mem {i : Nat} (h : s.task i = task) : task ∈ s.tasks ∨ task = .finished := by
  unfold ImportSystem.task at h
  cases hget : s.tasks[i]? with
  | none => exact .inr (h.symm.trans (by rw [hget]; rfl))
  | some found =>
    rw [hget] at h
    exact .inl (h ▸ List.mem_of_getElem? hget)

theorem mem_become {i : Nat} {task other : ImportTask} (h : other ∈ (s.become i task).tasks) : other ∈ s.tasks ∨ other = task :=
  List.mem_or_eq_of_mem_set h

theorem mem_spawn {task other : ImportTask} (h : other ∈ (s.spawn task).tasks) : other ∈ s.tasks ∨ other = task :=
  (List.mem_append.mp h).imp_right List.mem_singleton.mp

/-- Tasks stay right while accounts are stored and named. -/
theorem Agrees.mono (h : s.Agrees parts task) (hnames : ∀ id hint, s.Names id hint → s'.Names id hint)
    (haccounts : ∀ id, (s.accounts.get? id).isSome = true → (s'.accounts.get? id).isSome = true) : s'.Agrees parts task := by
  cases task with
  | loading call hint duplicate => exact ⟨hnames _ _ h.1, h.2⟩
  | saving pending credential => exact hnames _ _ h
  | recording pending => exact hnames _ _ h
  | matched pending addToPool => exact hnames _ _ h
  | building record sessionId previousRef => exact hnames _ _ h
  | committed record previousRef => exact ⟨hnames _ _ h.1, haccounts _ h.2⟩
  | expired pending => exact hnames _ _ h
  | discarding secretRefs => trivial
  | finished => trivial

/-- A task is known to agree. -/
theorem Identified.agrees (h : s.Identified parts) {i : Nat} (htask : s.task i = task) : s.Agrees parts task :=
  (task_mem htask).elim (h.tasks task) fun heq => heq ▸ trivial

theorem Identified.become (h : s.Identified parts) (i : Nat) (task : ImportTask) (htask : s.Agrees parts task) :
    (s.become i task).Identified parts where
  accounts := h.accounts
  pending := h.pending
  tasks other hmem := ((mem_become hmem).elim (h.tasks other) fun heq => heq ▸ htask).mono (fun _ _ h => h) fun _ h => h

theorem Identified.spawn (h : s.Identified parts) (task : ImportTask) (htask : s.Agrees parts task) :
    (s.spawn task).Identified parts where
  accounts := h.accounts
  pending := h.pending
  tasks other hmem := ((mem_spawn hmem).elim (h.tasks other) fun heq => heq ▸ htask).mono (fun _ _ h => h) fun _ h => h

/-- The rest of the state does not matter. -/
theorem Identified.congr (h : s.Identified parts) (s' : ImportSystem) (haccounts : s'.accounts = s.accounts)
    (hpending : ∀ id session, s'.pending.get? id = some session → s.pending.get? id = some session) (htasks : s'.tasks = s.tasks)
    (hnames : ∀ id hint, s.Names id hint → s'.Names id hint) : s'.Identified parts where
  accounts id account hget := hnames _ _ (h.accounts id account (haccounts ▸ hget))
  pending id session hget := hnames _ _ (h.pending id session (hpending id session hget))
  tasks task hmem := (h.tasks task (htasks ▸ hmem)).mono hnames fun _ hsome => haccounts ▸ hsome

/-- An account is stored that agrees with what is known. -/
theorem Identified.store (h : s.Identified parts) (account : ImportedAccount) (haccount : s.Names account.id account.identityHint) :
    ({ s with accounts := s.accounts.upsert account } : ImportSystem).Identified parts where
  accounts id := RecordTable.forall_get?_upsert (h.accounts id) fun _ => haccount
  pending := h.pending
  tasks task hmem := by
    refine (h.tasks task hmem).mono (fun _ _ h => h) fun id hsome => ?_
    show ((s.accounts.upsert account).get? id).isSome = true
    rw [RecordTable.get?_upsert]
    split
    case isTrue => rfl
    case isFalse => exact hsome

theorem deletePending_sub {ids : List String} {id : String} {session : PendingImport}
    (h : (s.deletePending ids).get? id = some session) : s.pending.get? id = some session ∧ id ∉ ids := by
  unfold ImportSystem.deletePending at h
  generalize s.pending = pending at h ⊢
  induction ids generalizing pending with
  | nil => exact ⟨h, List.not_mem_nil⟩
  | cons first ids ih =>
    obtain ⟨hget, hnot⟩ := ih _ h
    rw [RecordTable.get?_delete] at hget
    split at hget
    case isTrue => exact nomatch hget
    case isFalse hne => exact ⟨hget, fun hmem => (List.mem_cons.mp hmem).elim (fun heq => hne heq.symm) hnot⟩

theorem delete_sub {id other : String} {session : PendingImport} (h : (s.pending.delete id).get? other = some session) :
    s.pending.get? other = some session ∧ other ≠ id := by
  rw [RecordTable.get?_delete] at h
  split at h
  case isTrue => exact nomatch h
  case isFalse hne => exact ⟨h, Ne.symm hne⟩

theorem identified_advance (h : s.Identified parts) (i nowMs : Nat) : (s.advance parts i nowMs).Identified parts := by
  unfold ImportSystem.advance
  have hagrees := h.agrees (i := i) rfl
  generalize s.task i = task at hagrees
  cases task with
  | loading call hint duplicate =>
    obtain ⟨hnames, hhint⟩ := hagrees
    dsimp only
    split
    · exact h.become i .finished trivial
    · cases hprepare : prepareAccountImport parts call duplicate _ with
      | error e => exact h.become i .finished trivial
      | ok prepared =>
        obtain ⟨pending, credential⟩ := prepared
        have hprepared := prepareAccountImport_ok parts hprepare
        refine h.become i (.saving pending credential) ?_
        show s.Names _ _
        rw [hprepared.accountId, ← Except.ok.inj (hhint.symm.trans hprepared.identity)]
        exact hnames
  | saving pending credential =>
    exact (h.congr { s with
        vault := s.vault.insert pending.secretRef credential
        credentials := s.credentials.insert pending.secretRef credential } rfl (fun _ _ hget => hget) rfl
      fun _ _ hnames => hnames).become i (.recording pending) hagrees
  | recording pending =>
    have hrecorded : ({ s with pending := s.pending.upsert pending, recorded := pending.secretRef :: s.recorded } :
        ImportSystem).Identified parts :=
      ⟨h.accounts, fun id => RecordTable.forall_get?_upsert (h.pending id) fun _ => hagrees,
        fun task hmem => (h.tasks task hmem).mono (fun _ _ h => h) fun _ h => h⟩
    exact hrecorded.become i .finished trivial
  | matched pending addToPool =>
    exact h.become i (.building _ _ _) hagrees
  | building record sessionId previousRef =>
    have hnames : s.Names record.id record.identityHint := hagrees
    dsimp only
    cases s.pending.get? sessionId with
    | none => exact h.become i .finished trivial
    | some session =>
      refine ((h.store _ hnames).congr { s with accounts := s.accounts.upsert record, pending := s.pending.delete sessionId, confirmed := s.confirmed.insert record.id.text record.secretRef }
        rfl (fun _ _ hget => (delete_sub hget).1) rfl fun _ _ hnames => hnames).become i (.committed record previousRef) ⟨hnames, ?_⟩
      show ((s.accounts.upsert record).get? record.id.text).isSome = true
      rw [RecordTable.get?_upsert, if_pos rfl]
      rfl
  | committed record previousRef => exact h.become i (.discarding _) trivial
  | expired pending =>
    exact (h.congr { s with pending := s.pending.delete pending.id } rfl (fun _ _ hget => (delete_sub hget).1) rfl
      fun _ _ hnames => hnames).become i (.discarding _) trivial
  | discarding secretRefs =>
    cases secretRefs with
    | nil => exact h.become i .finished trivial
    | cons secretRef secretRefs =>
      exact (h.congr { s with vault := s.vault.erase secretRef } rfl (fun _ _ hget => hget) rfl
        fun _ _ hnames => hnames).become i (.discarding secretRefs) trivial
  | finished => exact h

theorem identified_preview (h : s.Identified parts) (call : PreviewCall) : (s.step parts (.preview call)).Identified parts := by
  unfold ImportSystem.step
  dsimp only
  cases hclean : cleanIdentifier call.input.chatgptAccountId "account id" with
  | error e => exact h
  | ok chatgptAccountId =>
    dsimp only
    generalize hhint : parts.identityHint chatgptAccountId = hint
    have hloading : (cleanIdentifier call.input.chatgptAccountId "account id").map parts.identityHint = .ok hint := by
      rw [hclean, ← hhint]
      rfl
    cases hnew : s.drawsNew call (s.duplicate hint) with
    | false => exact h
    | true =>
      rw [if_pos rfl]
      cases hduplicate : s.duplicate hint with
      | some duplicate =>
        have hfound : duplicate.identityHint = hint :=
          of_decide_eq_true (List.find?_some (p := fun account : ImportedAccount => decide (account.identityHint = hint)) hduplicate)
        have hnames := h.accounts _ _ (RecordTable.mem_all.mp (List.mem_of_find?_eq_some hduplicate))
        refine (h.congr { s with sessions := s.sessions.insert (call.secretRef (some duplicate)) call.names.sessionId } rfl
          (fun _ _ hget => hget) rfl fun _ _ hnames => hnames).spawn (.loading _ _ _) ⟨?_, hloading⟩
        exact hfound ▸ hnames
      | none =>
        rw [hduplicate] at hnew
        have hunused : s.hints[call.names.accountId.text]? = none :=
          Option.isNone_iff_eq_none.mp (Bool.and_eq_true_iff.mp (Bool.and_eq_true_iff.mp hnew).1).1
        refine (h.congr { s with
            hints := s.hints.insert call.names.accountId.text hint
            sessions := s.sessions.insert (call.secretRef none) call.names.sessionId } rfl (fun _ _ hget => hget) rfl
          fun _ _ hnames => getElem?_insert_new hunused hnames).spawn (.loading _ _ _) ⟨?_, hloading⟩
        exact (getElem?_insert_ite _ _ _ _).trans (if_pos rfl)

theorem identified_step (h : s.Identified parts) (op : ImportStep) : (s.step parts op).Identified parts := by
  cases op with
  | preview call => exact identified_preview h call
  | cleanup nowMs =>
    exact (h.congr { s with pending := s.deletePending ((s.stale nowMs).map PendingImport.id) } rfl
      (fun _ _ hget => (deletePending_sub hget).1) rfl fun _ _ hnames => hnames).spawn (.discarding _) trivial
  | confirm sessionId batchSessionId addToPool nowMs =>
    unfold ImportSystem.step
    dsimp only
    cases hget : s.pending.get? sessionId with
    | none => exact h
    | some pending =>
      have hnames := h.pending _ _ hget
      dsimp only
      split
      · exact h.spawn (.expired pending) hnames
      · split
        · exact h
        · exact h.spawn (.matched pending addToPool) hnames
  | next i nowMs => exact identified_advance h i nowMs
  | update i update =>
    unfold ImportSystem.step
    dsimp only
    have hagrees := h.agrees (i := i) rfl
    generalize s.task i = task at hagrees
    cases task with
    | committed record previousRef =>
      obtain ⟨hnames, -⟩ := hagrees
      have hupdated : s.Names (update.apply record.toServerAccountRecord).id record.identityHint := (update.id _).symm ▸ hnames
      dsimp only
      refine (h.store { record with toServerAccountRecord := update.apply record.toServerAccountRecord } hupdated).become i
        (.committed _ _) ⟨hupdated, ?_⟩
      show ((s.accounts.upsert _).get? _).isSome = true
      rw [RecordTable.get?_upsert, if_pos rfl]
      rfl
    | _ => exact h

/-- Storing an account leaves one for each identity exactly if there is no other of its identity. -/
theorem one_store (h : s.OneAccountPerIdentity) (account : ImportedAccount) (haccounts : s'.accounts = s.accounts.upsert account) :
    s'.OneAccountPerIdentity ↔ ∀ other ∈ s.accounts.all, other.identityHint = account.identityHint → other.id.text = account.id.text := by
  have hget : ∀ id, s'.accounts.get? id = if account.id.text = id then some account else s.accounts.get? id := by
    intro id
    rw [haccounts, RecordTable.get?_upsert]
  constructor
  · intro hone other hother hhint
    by_contra hne
    have hkept : s'.accounts.get? other.id.text = some other := by
      rw [hget, if_neg fun heq => hne heq.symm]
      exact RecordTable.mem_all.mp hother
    exact hne (hone _ _ _ _ hkept ((hget _).trans (if_pos rfl)) hhint)
  · intro hknown id id' found found' hfound hfound' hhint
    have hother : ∀ {id : String} {other : ImportedAccount}, s.accounts.get? id = some other →
        other.identityHint = account.identityHint → account.id.text = id := by
      intro id other hother hhint
      have hid : other.id.text = id := RecordTable.get?_id (t := s.accounts) hother
      exact (hknown other (RecordTable.mem_all.mpr (hid ▸ hother)) hhint).symm.trans hid
    rw [hget] at hfound hfound'
    split at hfound
    case isTrue hid =>
      obtain rfl := Option.some.inj hfound
      split at hfound'
      case isTrue hid' => exact hid.symm.trans hid'
      case isFalse => exact hid.symm.trans (hother hfound' hhint.symm)
    case isFalse =>
      split at hfound'
      case isTrue hid' =>
        obtain rfl := Option.some.inj hfound'
        exact (hother hfound hhint).symm.trans hid'
      case isFalse => exact h id id' found found' hfound hfound' hhint

theorem one_advance (h : s.OneAccountPerIdentity) (i nowMs : Nat) :
    (s.advance parts i nowMs).OneAccountPerIdentity ↔ s.CommitsKnown (.next i nowMs) := by
  unfold ImportSystem.advance CommitsKnown
  dsimp only
  cases s.task i with
  | building record sessionId previousRef =>
    dsimp only
    cases s.pending.get? sessionId with
    | none => exact iff_of_true h fun hsome => nomatch hsome
    | some session => exact (one_store h _ rfl).trans ⟨fun hknown _ => hknown, fun hknown => hknown rfl⟩
  | loading call hint duplicate =>
    refine iff_of_true ?_ trivial
    dsimp only
    split
    · exact h
    · cases prepareAccountImport parts call duplicate _ <;> exact h
  | discarding secretRefs => exact iff_of_true (by cases secretRefs <;> exact h) trivial
  | _ => exact iff_of_true h trivial

/-- What is stored again after a probe is the account that was committed. -/
theorem one_step (hidentified : s.Identified parts) (h : s.OneAccountPerIdentity) (op : ImportStep) :
    (s.step parts op).OneAccountPerIdentity ↔ s.CommitsKnown op := by
  cases op with
  | preview call =>
    refine iff_of_true ?_ trivial
    unfold ImportSystem.step
    dsimp only
    cases cleanIdentifier call.input.chatgptAccountId "account id" with
    | error e => exact h
    | ok chatgptAccountId =>
      dsimp only
      split <;> exact h
  | cleanup nowMs => exact iff_of_true h trivial
  | confirm sessionId batchSessionId addToPool nowMs =>
    refine iff_of_true ?_ trivial
    unfold ImportSystem.step
    dsimp only
    cases s.pending.get? sessionId with
    | none => exact h
    | some pending =>
      dsimp only
      split
      · exact h
      · split <;> exact h
  | next i nowMs => exact one_advance h i nowMs
  | update i update =>
    refine iff_of_true ?_ trivial
    unfold ImportSystem.step
    dsimp only
    have hagrees := hidentified.agrees (i := i) rfl
    generalize s.task i = task at hagrees
    cases task with
    | committed record previousRef =>
      obtain ⟨hnames, hstored⟩ := hagrees
      refine (one_store h { record with toServerAccountRecord := update.apply record.toServerAccountRecord } rfl).mpr ?_
      intro other hother hhint
      obtain ⟨stored, hget⟩ := Option.isSome_iff_exists.mp hstored
      have hid : stored.id.text = record.id.text := RecordTable.get?_id (t := s.accounts) hget
      have hsame : record.identityHint = stored.identityHint := by
        have hnames' := hidentified.accounts _ _ hget
        rw [Names, hid] at hnames'
        exact Option.some.inj (hnames.symm.trans hnames')
      rw [show (update.apply record.toServerAccountRecord).id = record.id from update.id _]
      exact h _ _ _ _ (RecordTable.mem_all.mp hother) hget (hhint.trans hsame)
    | _ => exact h

end

end ImportSystem

/-- From an empty store, there is one account for each identity in every state exactly if no commit finds another account
of its identity. -/
theorem one_account_per_identity_iff (parts : ImportParts) (ops : List ImportStep) :
    (∀ before after, ops = before ++ after → (run (ImportSystem.step parts) {} before).OneAccountPerIdentity) ↔
      StepsMeet (ImportSystem.step parts) ImportSystem.CommitsKnown {} ops := by
  have hempty : ∀ {ρ : Type} {idOf : ρ → String} (id : String), (RecordTable.empty : RecordTable ρ idOf).get? id = none :=
    fun _ => ExtTreeMap.getElem?_empty
  refine StepsMeet.always_iff (I := ImportSystem.Identified parts) (P := ImportSystem.OneAccountPerIdentity)
    (fun s op hidentified hone => ⟨ImportSystem.identified_step hidentified op, ImportSystem.one_step hidentified hone op⟩) ?_ ?_ ops
  · exact ⟨fun id account hget => absurd ((hempty id).symm.trans hget) nofun,
      fun id session hget => absurd ((hempty id).symm.trans hget) nofun, fun task hmem => (List.not_mem_nil hmem).elim⟩
  · exact fun id _ account _ hget _ _ => absurd ((hempty id).symm.trans hget) nofun

/-! ## Two previews of one identity -/

def sampleImportParts : ImportParts where
  identityHint value := value
  validateAccountResponsesUrl _ := .ok "https://chatgpt.com/backend-api/codex/responses"
  agentIdentity _ _ _ := .error "invalid"
  validateTokens _ := .ok ()
  normalizePlan value := value
  encode credential := credential.accessToken
  decode text := some { accessToken := text, issuedAtMs := 0 }

/-- A preview with an access token for the provider's account. -/
def samplePreview (accountId : RecordId) (sessionId token : String) : PreviewCall where
  input := { label := "Account", accessToken := token, chatgptAccountId := "provider-account" }
  names := { accountId, sessionId, secretUuid := sessionId }

/-- All of a task that is alone. -/
def alone (task : Nat) : List ImportStep := List.replicate 5 (.next task 0)

theorem firstId_valid : Text.trim "account_1" = "account_1" ∧ Text.asciiLower "account_1" = "account_1" ∧ "account_1" ≠ "" := by
  decide

theorem secondId_valid : Text.trim "account_2" = "account_2" ∧ Text.asciiLower "account_2" = "account_2" ∧ "account_2" ≠ "" := by
  decide

/-- Both sessions are previewed, and then confirmed. -/
def previewedTwice : List ImportStep :=
  .preview (samplePreview ⟨"account_1", firstId_valid⟩ "import_1" "first") :: alone 0 ++
    .preview (samplePreview ⟨"account_2", secondId_valid⟩ "import_2" "second") :: alone 1 ++
    .confirm "import_1" none true 0 :: alone 2 ++ .confirm "import_2" none true 0 :: alone 3

/-- The same two imports, one after the other. -/
def importedInTurn : List ImportStep :=
  .preview (samplePreview ⟨"account_1", firstId_valid⟩ "import_1" "first") :: alone 0 ++
    .confirm "import_1" none true 0 :: alone 1 ++
    .preview (samplePreview ⟨"account_2", secondId_valid⟩ "import_2" "second") :: alone 2 ++
    .confirm "import_2" none true 0 :: alone 3

theorem two_accounts_for_one_identity :
    ¬(run (ImportSystem.step sampleImportParts) {} previewedTwice).OneAccountPerIdentity ∧
      (run (ImportSystem.step sampleImportParts) {} previewedTwice).accounts.all.length = 2 ∧
      (run (ImportSystem.step sampleImportParts) {} importedInTurn).accounts.all.length = 1 := by
  refine ⟨fun hone => ?_, by decide +kernel, by decide +kernel⟩
  have hfirst : ((run (ImportSystem.step sampleImportParts) {} previewedTwice).accounts.get? "account_1").map (·.identityHint) =
      some "provider-account" := by decide +kernel
  have hsecond : ((run (ImportSystem.step sampleImportParts) {} previewedTwice).accounts.get? "account_2").map (·.identityHint) =
      some "provider-account" := by decide +kernel
  obtain ⟨first, hget, hhint⟩ := Option.map_eq_some_iff.mp hfirst
  obtain ⟨second, hget', hhint'⟩ := Option.map_eq_some_iff.mp hsecond
  exact absurd (hone _ _ _ _ hget hget' (hhint.trans hhint'.symm)) (by decide)

end Zenith.Server
