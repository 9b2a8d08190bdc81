import Zenith.Server.ImportSessions

/-!
# The secrets of imports

Every reference has one place: it is drawn and not yet recorded, or a session's, or an account's, or to be deleted by
a call under way. Steps move references from place to place, as long as a commit replaces the reference that its
confirmation has read, a session that has expired was not confirmed meanwhile, and what is stored after a probe is
still the account's last import (`ActsOnCurrent`). Then no account is without the secret of its last import, and when
no call is under way no other secret is left than those of accounts and sessions.
-/

namespace Zenith.Server

open Std Zenith.Accounts Zenith.Records Zenith.Runs Zenith.Tables Zenith.Text

namespace ImportTask

/-- The references whose secrets the task is to delete. -/
def held : ImportTask → List String
  | committed record previousRef => (previousRef.filter (· ≠ record.secretRef)).toList
  | discarding secretRefs => secretRefs
  | _ => []

/-- The reference that was drawn for a session, until the session is recorded. -/
def draft : ImportTask → Option String
  | loading call _ duplicate => some (call.secretRef duplicate)
  | saving pending _ | recording pending => some pending.secretRef
  | _ => none

def isFinished : ImportTask → Bool
  | finished => true
  | _ => false

end ImportTask

namespace ImportSystem

/-- The reference is an account's. -/
def Stored (s : ImportSystem) (secretRef : String) : Prop := ∃ id account, s.accounts.get? id = some account ∧ account.secretRef = secretRef

/-- The reference is that of a session that can be confirmed. -/
def Open (s : ImportSystem) (secretRef : String) : Prop := ∃ id session, s.pending.get? id = some session ∧ session.secretRef = secretRef

/-- The vault has the credential that was stored under the reference. -/
def Saved (s : ImportSystem) (secretRef : String) : Prop :=
  ∃ credential, s.credentials[secretRef]? = some credential ∧ s.vault[secretRef]? = some credential

/-- Every account has the credential of its last import, and what is in the vault is an account's or a session's. -/
structure SecretsInOrder (s : ImportSystem) : Prop where
  secret : ∀ id account, s.accounts.get? id = some account → s.confirmed[id]? = some account.secretRef ∧ s.Saved account.secretRef
  deleted : ∀ secretRef : String, s.vault[secretRef]?.isSome = true → s.Stored secretRef ∨ s.Open secretRef

/-- No call is under way. -/
def Quiet (s : ImportSystem) : Prop := s.tasks.all (·.isFinished) = true

/-- What a call changes is as it has read it: the reference that the account had, and a session that nobody has
confirmed meanwhile. -/
def ActsOnRead (s : ImportSystem) : ImportTask → Prop
  | .building record sessionId previousRef => (s.pending.get? sessionId).isSome = true →
      (s.accounts.get? record.id.text).map (·.secretRef) = previousRef
  | .expired pending => ∀ account ∈ s.accounts.all, account.secretRef ≠ pending.secretRef
  | _ => True

/-- The import that a probe was made for is the account's last one. -/
def ProbesLast (s : ImportSystem) : ImportTask → Prop
  | .committed record _ => (s.accounts.get? record.id.text).map (·.secretRef) = some record.secretRef
  | _ => True

def ActsOnCurrent (s : ImportSystem) : ImportStep → Prop
  | .next i _ => s.ActsOnRead (s.task i)
  | .update i _ => s.ProbesLast (s.task i)
  | _ => True

instance (s : ImportSystem) : (task : ImportTask) → Decidable (s.ActsOnRead task)
  | .building .. => inferInstanceAs (Decidable (_ → _))
  | .expired _ => inferInstanceAs (Decidable (∀ account ∈ s.accounts.all, _))
  | .loading .. | .saving .. | .recording _ | .matched .. | .committed .. | .discarding _ | .finished => .isTrue trivial

instance (s : ImportSystem) : (task : ImportTask) → Decidable (s.ProbesLast task)
  | .committed record _ => inferInstanceAs (Decidable (_ = some record.secretRef))
  | .loading .. | .saving .. | .recording _ | .matched .. | .building .. | .expired _ | .discarding _ | .finished => .isTrue trivial

instance (s : ImportSystem) : (op : ImportStep) → Decidable (s.ActsOnCurrent op)
  | .next i _ => inferInstanceAs (Decidable (s.ActsOnRead (s.task i)))
  | .update i _ => inferInstanceAs (Decidable (s.ProbesLast (s.task i)))
  | .preview _ | .cleanup _ | .confirm .. => .isTrue trivial

instance (s : ImportSystem) : Decidable s.Quiet := inferInstanceAs (Decidable (_ = true))

/-! ## The places of references -/

/-- A reference that is neither an account's nor a session's any more. -/
structure Released (s : ImportSystem) (secretRef : String) : Prop where
  recorded : secretRef ∈ s.recorded
  notStored : ¬s.Stored secretRef
  notOpen : ¬s.Open secretRef

/-- What a task knows of the references that it is about. -/
def Holds (s : ImportSystem) : ImportTask → Prop
  | .loading call _ duplicate => s.sessions[call.secretRef duplicate]? = some call.names.sessionId ∧ call.secretRef duplicate ∉ s.recorded
  | .saving pending _ => s.sessions[pending.secretRef]? = some pending.id ∧ pending.secretRef ∉ s.recorded
  | .recording pending => (s.sessions[pending.secretRef]? = some pending.id ∧ pending.secretRef ∉ s.recorded) ∧ s.Saved pending.secretRef
  | .matched pending _ | .expired pending => s.sessions[pending.secretRef]? = some pending.id ∧ pending.secretRef ∈ s.recorded
  | .building record sessionId _ => s.sessions[record.secretRef]? = some sessionId ∧ record.secretRef ∈ s.recorded
  | .committed record previousRef => ∀ secretRef ∈ (ImportTask.committed record previousRef).held, s.Released secretRef
  | .discarding secretRefs => ∀ secretRef ∈ secretRefs, s.Released secretRef
  | .finished => True

structure Orderly (s : ImportSystem) : Prop where
  account : ∀ id account, s.accounts.get? id = some account → s.confirmed[id]? = some account.secretRef ∧ s.Saved account.secretRef ∧
    account.secretRef ∈ s.recorded
  session : ∀ id session, s.pending.get? id = some session → s.sessions[session.secretRef]? = some id ∧ s.Saved session.secretRef ∧
    session.secretRef ∈ s.recorded
  oneSession : ∀ (secretRef secretRef' : String) id, s.sessions[secretRef]? = some id → s.sessions[secretRef']? = some id →
    secretRef = secretRef'
  oneAccount : ∀ id id' account account', s.accounts.get? id = some account → s.accounts.get? id' = some account' →
    account.secretRef = account'.secretRef → id = id'
  apart : ∀ secretRef, s.Stored secretRef → ¬s.Open secretRef
  drawn : ∀ secretRef ∈ s.recorded, s.sessions[secretRef]?.isSome = true
  oneDraft : ∀ i j secretRef, (s.task i).draft = some secretRef → (s.task j).draft = some secretRef → i = j
  tasks : ∀ i, s.Holds (s.task i)
  covered : ∀ secretRef : String, s.vault[secretRef]?.isSome = true → s.Stored secretRef ∨ s.Open secretRef ∨
    (∃ i, secretRef ∈ (s.task i).held) ∨ ∃ i pending, s.task i = .recording pending ∧ pending.secretRef = secretRef

section
variable {parts : ImportParts} {s s' : ImportSystem}

variable {i : Nat}

theorem task_eq_of_ge (h : s.tasks.length ≤ i) : s.task i = .finished := by
  rw [task, List.getElem?_eq_none h]
  rfl

theorem task_become (h : s.task i ≠ .finished) (task : ImportTask) (j : Nat) :
    (s.become i task).task j = if i = j then task else s.task j := by
  have hlt : i < s.tasks.length := by
    by_contra hge
    exact h (task_eq_of_ge (Nat.le_of_not_lt hge))
  show ((s.tasks.set i task)[j]?).getD .finished = _
  rw [List.getElem?_set]
  split
  case isTrue => rfl
  case isFalse => rfl

theorem task_spawn (task : ImportTask) (j : Nat) :
    (s.spawn task).task j = if j = s.tasks.length then task else s.task j := by
  show ((s.tasks ++ [task])[j]?).getD .finished = _
  split
  case isTrue heq => rw [heq, List.getElem?_concat_length]; rfl
  case isFalse hne =>
    rcases Nat.lt_or_ge j s.tasks.length with hlt | hge
    · rw [List.getElem?_append_left hlt]
      rfl
    · rw [List.getElem?_eq_none (by rw [List.length_append, List.length_singleton]; omega), task_eq_of_ge hge]
      rfl

variable {task : ImportTask}

/-- What a task knows stays so while references are only recorded, and released ones stay released. -/
theorem Holds.mono (h : s.Holds task)
    (hsessions : ∀ (secretRef : String) id, s.sessions[secretRef]? = some id → s'.sessions[secretRef]? = some id)
    (hrecorded : ∀ secretRef ∈ s.recorded, secretRef ∈ s'.recorded) (hreleased : ∀ secretRef, s.Released secretRef → s'.Released secretRef)
    (hdraft : ∀ secretRef, task.draft = some secretRef → secretRef ∉ s.recorded →
      secretRef ∉ s'.recorded ∧ (s.Saved secretRef → s'.Saved secretRef)) : s'.Holds task := by
  cases task with
  | loading call hint duplicate => exact ⟨hsessions _ _ h.1, (hdraft _ rfl h.2).1⟩
  | saving pending credential => exact ⟨hsessions _ _ h.1, (hdraft _ rfl h.2).1⟩
  | recording pending => exact ⟨⟨hsessions _ _ h.1.1, (hdraft _ rfl h.1.2).1⟩, (hdraft _ rfl h.1.2).2 h.2⟩
  | matched pending addToPool => exact ⟨hsessions _ _ h.1, hrecorded _ h.2⟩
  | building record sessionId previousRef => exact ⟨hsessions _ _ h.1, hrecorded _ h.2⟩
  | committed record previousRef => exact fun secretRef hmem => hreleased _ (h secretRef hmem)
  | expired pending => exact ⟨hsessions _ _ h.1, hrecorded _ h.2⟩
  | discarding secretRefs => exact fun secretRef hmem => hreleased _ (h secretRef hmem)
  | finished => trivial

/-- Only the tasks differ. -/
theorem Holds.tasks (h : s.Holds task) (tasks : List ImportTask) : ({ s with tasks } : ImportSystem).Holds task :=
  h.mono (fun _ _ h => h) (fun _ h => h) (fun _ h => ⟨h.recorded, h.notStored, h.notOpen⟩) fun _ _ h => ⟨h, fun h => h⟩

variable {secretRef : String}

/-- A released reference stays so as long as it becomes neither an account's nor a session's. -/
theorem Released.mono (h : s.Released secretRef) (hrecorded : ∀ secretRef ∈ s.recorded, secretRef ∈ s'.recorded)
    (hstored : s'.Stored secretRef → s.Stored secretRef ∨ s.Open secretRef)
    (hopen : s'.Open secretRef → s.Open secretRef ∨ secretRef ∉ s.recorded) : s'.Released secretRef where
  recorded := hrecorded _ h.recorded
  notStored hmem := (hstored hmem).elim h.notStored h.notOpen
  notOpen hmem := (hopen hmem).elim h.notOpen fun hnot => hnot h.recorded

variable {session : PendingImport}

/-- The reference of a session that can be confirmed is that of its id. -/
theorem Orderly.session_ref (h : s.Orderly) {id secretRef : String} (hget : s.pending.get? id = some session)
    (hsession : s.sessions[secretRef]? = some id) : session.secretRef = secretRef :=
  h.oneSession _ _ _ (h.session _ _ hget).1 hsession

/-- The references of a task that the vault may have on its account: those that it holds, and that of its new session. -/
def Covers (task : ImportTask) (secretRef : String) : Prop :=
  secretRef ∈ task.held ∨ ∃ pending, task = .recording pending ∧ pending.secretRef = secretRef

theorem Covers.mem_held (h : Covers task secretRef) (hne : ∀ pending, task ≠ .recording pending) :
    secretRef ∈ task.held :=
  h.resolve_right fun ⟨pending, heq, _⟩ => hne pending heq

theorem Orderly.covers (h : s.Orderly) (hsome : s.vault[secretRef]?.isSome = true) :
    s.Stored secretRef ∨ s.Open secretRef ∨ ∃ i, Covers (s.task i) secretRef :=
  (h.covered secretRef hsome).imp_right (Or.imp_right fun hor => hor.elim (fun ⟨i, hheld⟩ => ⟨i, .inl hheld⟩)
    fun ⟨i, pending, hi, href⟩ => ⟨i, .inr ⟨pending, hi, href⟩⟩)

/-- A task changes the stores, and goes on. The other tasks must be left right. -/
theorem Orderly.change (h : s.Orderly) (hne : s.task i ≠ .finished) (htasks : s'.tasks = s.tasks)
    (haccount : ∀ id account, s'.accounts.get? id = some account →
      s'.confirmed[id]? = some account.secretRef ∧ s'.Saved account.secretRef ∧ account.secretRef ∈ s'.recorded)
    (hsession : ∀ id session, s'.pending.get? id = some session →
      s'.sessions[session.secretRef]? = some id ∧ s'.Saved session.secretRef ∧ session.secretRef ∈ s'.recorded)
    (hsessions : s'.sessions = s.sessions)
    (honeAccount : ∀ id id' account account', s'.accounts.get? id = some account → s'.accounts.get? id' = some account' →
      account.secretRef = account'.secretRef → id = id')
    (hapart : ∀ secretRef, s'.Stored secretRef → ¬s'.Open secretRef)
    (hdrawn : ∀ secretRef ∈ s'.recorded, s'.sessions[secretRef]?.isSome = true)
    (hdraft : ∀ secretRef, task.draft = some secretRef → (s.task i).draft = some secretRef)
    (htask : s'.Holds task) (hothers : ∀ j, i ≠ j → s.Holds (s.task j) → s'.Holds (s.task j))
    (hcovered : ∀ secretRef : String, s'.vault[secretRef]?.isSome = true → s'.Stored secretRef ∨ s'.Open secretRef ∨
      Covers task secretRef ∨ ∃ j, i ≠ j ∧ Covers (s.task j) secretRef) :
    (s'.become i task).Orderly := by
  have hsame : ∀ j, s'.task j = s.task j := fun j => by rw [ImportSystem.task, htasks]; rfl
  have hbecome : ∀ j, (s'.become i task).task j = if i = j then task else s.task j := by
    intro j
    rw [task_become (hsame i ▸ hne), hsame]
  refine ⟨haccount, hsession, ?_, honeAccount, hapart, hdrawn, ?_, fun j => ?_, fun secretRef hsome => ?_⟩
  · show ∀ (secretRef secretRef' : String) id, s'.sessions[secretRef]? = some id → s'.sessions[secretRef']? = some id → _
    rw [hsessions]
    exact h.oneSession
  · have hof : ∀ {j secretRef}, ((s'.become i task).task j).draft = some secretRef → (s.task j).draft = some secretRef := by
      intro j secretRef hj
      rw [hbecome] at hj
      split at hj
      case isTrue heq => exact heq ▸ hdraft _ hj
      case isFalse => exact hj
    exact fun j k secretRef hj hk => h.oneDraft j k secretRef (hof hj) (hof hk)
  · rw [hbecome]
    split
    case isTrue => exact htask.tasks _
    case isFalse hij => exact (hothers j hij (h.tasks j)).tasks _
  · refine (hcovered secretRef hsome).imp_right (Or.imp_right fun hcovers => ?_)
    have hat : ∃ j, Covers ((s'.become i task).task j) secretRef := by
      rcases hcovers with htask | ⟨j, hij, hj⟩
      · exact ⟨i, by rw [hbecome, if_pos rfl]; exact htask⟩
      · exact ⟨j, by rw [hbecome, if_neg hij]; exact hj⟩
    obtain ⟨j, hheld | ⟨pending, hj, href⟩⟩ := hat
    · exact .inl ⟨j, hheld⟩
    · exact .inr ⟨j, pending, hj, href⟩

/-- A task goes on, and nothing else happens. -/
theorem Orderly.turn (h : s.Orderly) (hne : s.task i ≠ .finished) (htask : s.Holds task)
    (hdraft : ∀ secretRef, task.draft = some secretRef → (s.task i).draft = some secretRef)
    (hcovers : ∀ secretRef, Covers (s.task i) secretRef → Covers task secretRef) : (s.become i task).Orderly := by
  refine h.change hne rfl h.account h.session rfl h.oneAccount h.apart h.drawn hdraft htask (fun _ _ hholds => hholds) ?_
  intro secretRef hsome
  refine (h.covers hsome).imp_right (Or.imp_right ?_)
  rintro ⟨j, hj⟩
  by_cases hij : i = j
  · exact .inl (hcovers _ (hij ▸ hj))
  · exact .inr ⟨j, hij, hj⟩

/-- A reference that was drawn for a session to come. -/
theorem Orderly.draft (h : s.Orderly) (hdraft : (s.task i).draft = some secretRef) :
    s.sessions[secretRef]?.isSome = true ∧ secretRef ∉ s.recorded := by
  have hholds := h.tasks i
  generalize s.task i = task at hdraft hholds
  cases task with
  | loading call hint duplicate =>
    obtain rfl := Option.some.inj hdraft
    exact ⟨hholds.1 ▸ rfl, hholds.2⟩
  | saving pending credential =>
    obtain rfl := Option.some.inj hdraft
    exact ⟨hholds.1 ▸ rfl, hholds.2⟩
  | recording pending =>
    obtain rfl := Option.some.inj hdraft
    exact ⟨hholds.1.1 ▸ rfl, hholds.1.2⟩
  | _ => exact nomatch hdraft

/-- A call changes the stores, and a task starts. -/
theorem Orderly.launch (h : s.Orderly) (htasks : s'.tasks = s.tasks)
    (haccounts : s'.accounts = s.accounts) (hconfirmed : s'.confirmed = s.confirmed) (hsaved : ∀ secretRef, s.Saved secretRef → s'.Saved secretRef)
    (hpending : ∀ id session, s'.pending.get? id = some session → s.pending.get? id = some session)
    (hsessions : ∀ (secretRef : String) id, s.sessions[secretRef]? = some id → s'.sessions[secretRef]? = some id)
    (honeSession : ∀ (secretRef secretRef' : String) id, s'.sessions[secretRef]? = some id → s'.sessions[secretRef']? = some id →
      secretRef = secretRef') (hrecorded : s'.recorded = s.recorded) (hdraft : ∀ secretRef, task.draft = some secretRef → s.sessions[secretRef]? = none)
    (htask : s'.Holds task) (hcovered : ∀ secretRef : String, s'.vault[secretRef]?.isSome = true → s.vault[secretRef]?.isSome = true)
    (hopen : ∀ secretRef, s.Open secretRef → s'.Open secretRef ∨ secretRef ∈ task.held) : (s'.spawn task).Orderly := by
  have hstored : ∀ secretRef, s'.Stored secretRef ↔ s.Stored secretRef := fun secretRef => by
    unfold Stored
    rw [haccounts]
  have hopened : ∀ secretRef, s'.Open secretRef → s.Open secretRef :=
    fun secretRef ⟨id, session, hget, href⟩ => ⟨id, session, hpending _ _ hget, href⟩
  have hlength : s'.tasks.length = s.tasks.length := congrArg List.length htasks
  have hsame : ∀ j, s'.task j = s.task j := fun j => by rw [ImportSystem.task, htasks]; rfl
  have hspawn : ∀ j, (s'.spawn task).task j = if j = s.tasks.length then task else s.task j := by
    intro j
    rw [task_spawn, hsame, hlength]
  have holds : ∀ {task : ImportTask}, s.Holds task → s'.Holds task := fun hholds => hholds.mono hsessions
    (fun _ hmem => hrecorded ▸ hmem) (fun _ hreleased => hreleased.mono (fun _ hmem => hrecorded ▸ hmem)
      (fun hmem => .inl ((hstored _).mp hmem)) fun hmem => .inl (hopened _ hmem)) fun secretRef _ hnot => ⟨hrecorded ▸ hnot, hsaved secretRef⟩
  refine ⟨fun id account hget => ?_, fun id session hget => ?_, honeSession, ?_, fun secretRef hmem hmem' => ?_, fun secretRef hmem => ?_,
    fun j k secretRef hj hk => ?_, fun j => ?_, fun secretRef hsome => ?_⟩
  · show s'.confirmed[id]? = _ ∧ _
    rw [hconfirmed]
    obtain ⟨hlast, hcredential, hmem⟩ := h.account id account (haccounts ▸ hget)
    exact ⟨hlast, hsaved _ hcredential, (congrArg (account.secretRef ∈ ·) hrecorded).mpr hmem⟩
  · obtain ⟨hid, hcredential, hmem⟩ := h.session id session (hpending _ _ hget)
    exact ⟨hsessions _ _ hid, hsaved _ hcredential, (congrArg (session.secretRef ∈ ·) hrecorded).mpr hmem⟩
  · show ∀ id id' account account', s'.accounts.get? id = some account → s'.accounts.get? id' = some account' → _
    rw [haccounts]
    exact h.oneAccount
  · exact h.apart secretRef ((hstored _).mp hmem) (hopened _ hmem')
  · obtain ⟨id, hid⟩ := Option.isSome_iff_exists.mp (h.drawn secretRef (hrecorded ▸ hmem))
    exact Option.isSome_iff_exists.mpr ⟨id, hsessions _ _ hid⟩
  · -- What is drawn now was not drawn before.
    have hnew : ∀ {j}, (s.task j).draft = some secretRef → task.draft ≠ some secretRef := by
      intro j hj htask
      have hdrawn := (h.draft hj).1
      rw [hdraft secretRef htask] at hdrawn
      exact nomatch hdrawn
    rw [hspawn] at hj hk
    split at hj
    case isTrue hjl =>
      split at hk
      case isTrue hkl => exact hjl.trans hkl.symm
      case isFalse => exact absurd hj (hnew hk)
    case isFalse =>
      split at hk
      case isTrue => exact absurd hk (hnew hj)
      case isFalse => exact h.oneDraft j k secretRef hj hk
  · rw [hspawn]
    split
    case isTrue => exact htask.tasks _
    case isFalse => exact (holds (h.tasks j)).tasks _
  · have hkept : ∀ {j}, s.task j ≠ .finished → (s'.spawn task).task j = s.task j := by
      intro j hne
      rw [hspawn, if_neg fun heq : j = s.tasks.length => hne (task_eq_of_ge (Nat.le_of_eq heq.symm))]
    have hat : (s'.spawn task).task s.tasks.length = task := by rw [hspawn, if_pos rfl]
    rcases h.covered secretRef (hcovered _ hsome) with hmem | hmem | ⟨j, hheld⟩ | ⟨j, pending, hj, href⟩
    · exact .inl ((hstored _).mpr hmem)
    · exact .inr ((hopen _ hmem).imp_right fun hheld => .inl ⟨s.tasks.length, hat.symm ▸ hheld⟩)
    · refine .inr (.inr (.inl ⟨j, ?_⟩))
      rw [hkept fun heq => List.not_mem_nil (heq ▸ hheld : secretRef ∈ ImportTask.finished.held)]
      exact hheld
    · refine .inr (.inr (.inr ⟨j, pending, ?_, href⟩))
      rw [hkept (by rw [hj]; exact fun heq => ImportTask.noConfusion heq), hj]

/-- What the vault has is an account's, a session's, or on account of the task or of another one. -/
theorem Orderly.covers_or (h : s.Orderly) (i : Nat) (hsome : s.vault[secretRef]?.isSome = true) :
    s.Stored secretRef ∨ s.Open secretRef ∨ Covers (s.task i) secretRef ∨ ∃ j, i ≠ j ∧ Covers (s.task j) secretRef := by
  refine (h.covers hsome).imp_right (Or.imp_right ?_)
  rintro ⟨j, hj⟩
  by_cases hij : i = j
  · exact .inl (hij ▸ hj)
  · exact .inr ⟨j, hij, hj⟩

/-! ## The steps -/

variable {pending : PendingImport}

/-- A preview stores its credential. -/
theorem Orderly.save (h : s.Orderly) {credential : String}
    (htask : s.task i = .saving pending credential) :
    ({ s with
      vault := s.vault.insert pending.secretRef credential
      credentials := s.credentials.insert pending.secretRef credential }.become i (.recording pending) : ImportSystem).Orderly := by
  generalize hs' : ({ s with
      vault := s.vault.insert pending.secretRef credential
      credentials := s.credentials.insert pending.secretRef credential } : ImportSystem) = s'
  have hsaved : ∀ secretRef, s.Saved secretRef → s'.Saved secretRef := by
    rintro secretRef ⟨stored, hstored, hvault⟩
    subst hs'
    by_cases heq : pending.secretRef = secretRef
    · exact ⟨credential, by rw [getElem?_insert_ite, if_pos heq], by rw [getElem?_insert_ite, if_pos heq]⟩
    · exact ⟨stored, by rw [getElem?_insert_ite, if_neg heq, hstored], by rw [getElem?_insert_ite, if_neg heq, hvault]⟩
  obtain ⟨hid, hnot⟩ : s.sessions[pending.secretRef]? = some pending.id ∧ pending.secretRef ∉ s.recorded := by
    have hholds := h.tasks i
    rwa [htask] at hholds
  subst hs'
  refine h.change (by rw [htask]; exact fun heq => ImportTask.noConfusion heq) rfl
    (fun id account hget => (h.account id account hget).imp_right (And.imp_left (hsaved _)))
    (fun id session hget => (h.session id session hget).imp_right (And.imp_left (hsaved _))) rfl h.oneAccount h.apart h.drawn
    (fun secretRef hdraft => by rw [htask]; exact hdraft) ⟨⟨hid, hnot⟩, credential, ?_, ?_⟩ (fun j hij hholds => ?_) fun secretRef hsome => ?_
  · exact (getElem?_insert_ite _ _ _ _).trans (if_pos rfl)
  · exact (getElem?_insert_ite _ _ _ _).trans (if_pos rfl)
  · exact hholds.mono (fun _ _ h => h) (fun _ h => h) (fun _ h => ⟨h.recorded, h.notStored, h.notOpen⟩) fun secretRef _ hnot => ⟨hnot, hsaved secretRef⟩
  · by_cases heq : pending.secretRef = secretRef
    · exact .inr (.inr (.inl (.inr ⟨pending, rfl, heq⟩)))
    · have hold : s.vault[secretRef]?.isSome = true := by
        rw [← hsome]
        exact congrArg Option.isSome ((getElem?_insert_ite _ _ _ _).trans (if_neg heq)).symm
      refine (h.covers_or i hold).imp_right (Or.imp_right (Or.imp_left fun hcovers => ?_))
      rw [htask] at hcovers
      exact (List.not_mem_nil (hcovers.mem_held fun _ heq => ImportTask.noConfusion heq)).elim

/-- A preview records its session. -/
theorem Orderly.record (h : s.Orderly) (htask : s.task i = .recording pending) :
    ({ s with
      pending := s.pending.upsert pending
      recorded := pending.secretRef :: s.recorded }.become i .finished : ImportSystem).Orderly := by
  generalize hs' : ({ s with
      pending := s.pending.upsert pending
      recorded := pending.secretRef :: s.recorded } : ImportSystem) = s'
  obtain ⟨⟨hid, hnot⟩, hsaved⟩ : (s.sessions[pending.secretRef]? = some pending.id ∧ pending.secretRef ∉ s.recorded) ∧
      s.Saved pending.secretRef := by
    have hholds := h.tasks i
    rwa [htask] at hholds
  have hpending : ∀ id, s'.pending.get? id = if pending.id = id then some pending else s.pending.get? id := fun id => by
    subst hs'
    exact RecordTable.get?_upsert ..
  have hopened : ∀ secretRef, s'.Open secretRef → pending.secretRef = secretRef ∨ s.Open secretRef := by
    rintro secretRef ⟨id, session, hget, href⟩
    rw [hpending] at hget
    split at hget
    case isTrue => exact .inl (by rw [Option.some.inj hget, href])
    case isFalse => exact .inr ⟨id, session, hget, href⟩
  have hopen : ∀ secretRef, s.Open secretRef → s'.Open secretRef := by
    rintro secretRef ⟨id, session, hget, href⟩
    by_cases heq : pending.id = id
    · -- The reference of a session is that of its id.
      refine ⟨id, pending, by rw [hpending, if_pos heq], ?_⟩
      rw [← href, h.session_ref hget (heq ▸ hid)]
    · exact ⟨id, session, by rw [hpending, if_neg heq, hget], href⟩
  have hnew : s'.Open pending.secretRef := ⟨pending.id, pending, by rw [hpending, if_pos rfl], rfl⟩
  subst hs'
  refine h.change (by rw [htask]; exact fun heq => ImportTask.noConfusion heq) rfl
    (fun id account hget => (h.account id account hget).imp_right (And.imp_right (List.mem_cons_of_mem _))) (fun id session hget => ?_) rfl
    h.oneAccount (fun secretRef hstored hopen' => ?_) (fun secretRef hmem => ?_) (fun secretRef hdraft => nomatch hdraft) trivial
    (fun j hij hholds => ?_) fun secretRef hsome => ?_
  · rw [hpending] at hget
    split at hget
    case isTrue heq =>
      obtain rfl := Option.some.inj hget
      exact ⟨heq ▸ hid, hsaved, List.mem_cons_self⟩
    case isFalse => exact (h.session id session hget).imp_right (And.imp_right (List.mem_cons_of_mem _))
  · rcases hopened secretRef hopen' with rfl | hold
    · obtain ⟨id, account, hget, href⟩ := hstored
      exact hnot (href ▸ (h.account id account hget).2.2)
    · exact h.apart secretRef hstored hold
  · rcases List.mem_cons.mp hmem with rfl | hmem
    · exact hid ▸ rfl
    · exact h.drawn secretRef hmem
  · refine hholds.mono (fun _ _ h => h) (fun _ => List.mem_cons_of_mem _) (fun secretRef hreleased => ?_) fun secretRef hdraft hnot' => ⟨?_, fun h => h⟩
    · refine hreleased.mono (fun _ => List.mem_cons_of_mem _) .inl fun hmem => ?_
      exact (hopened secretRef hmem).elim (fun heq => .inr (heq ▸ hnot)) .inl
    · -- No other task has drawn it.
      refine fun hmem => (List.mem_cons.mp hmem).elim (fun heq => hij ?_) hnot'
      exact h.oneDraft i j secretRef (by rw [htask, heq]; rfl) hdraft
  · rcases h.covers_or i hsome with hmem | hmem | hmem | hmem
    · exact .inl hmem
    · exact .inr (.inl (hopen _ hmem))
    · rw [htask] at hmem
      obtain hheld | ⟨recorded, heq, href⟩ := hmem
      · exact (List.not_mem_nil hheld).elim
      · obtain rfl := ImportTask.recording.inj heq
        exact .inr (.inl (href ▸ hnew))
    · exact .inr (.inr (.inr hmem))

variable {record : ImportedAccount} {previousRef : Option String}

/-- A confirmation commits its record, over the one that it has read. -/
theorem Orderly.commit (h : s.Orderly) {sessionId : String}
    (htask : s.task i = .building record sessionId previousRef) (hrow : s.pending.get? sessionId = some session)
    (hcurrent : (s.accounts.get? record.id.text).map (·.secretRef) = previousRef) :
    ({ s with
      accounts := s.accounts.upsert record
      pending := s.pending.delete sessionId
      confirmed := s.confirmed.insert record.id.text record.secretRef }.become i (.committed record previousRef) : ImportSystem).Orderly := by
  generalize hs' : ({ s with
      accounts := s.accounts.upsert record
      pending := s.pending.delete sessionId
      confirmed := s.confirmed.insert record.id.text record.secretRef } : ImportSystem) = s'
  obtain ⟨hid, hrecorded⟩ : s.sessions[record.secretRef]? = some sessionId ∧ record.secretRef ∈ s.recorded := by
    have hholds := h.tasks i
    rwa [htask] at hholds
  have href : session.secretRef = record.secretRef := h.session_ref hrow hid
  have hopen : s.Open record.secretRef := ⟨sessionId, session, hrow, href⟩
  have hunstored : ¬s.Stored record.secretRef := fun hstored => h.apart _ hstored hopen
  have haccounts : ∀ id, s'.accounts.get? id = if record.id.text = id then some record else s.accounts.get? id := fun id => by
    subst hs'
    exact RecordTable.get?_upsert ..
  have hpending : ∀ id session, s'.pending.get? id = some session → s.pending.get? id = some session ∧ id ≠ sessionId := fun id session hget => by
    subst hs'
    exact delete_sub hget
  have hstored : ∀ secretRef, s'.Stored secretRef → record.secretRef = secretRef ∨
      ∃ id account, record.id.text ≠ id ∧ s.accounts.get? id = some account ∧ account.secretRef = secretRef := by
    rintro secretRef ⟨id, account, hget, hsecret⟩
    rw [haccounts] at hget
    split at hget
    case isTrue => exact .inl (by rw [Option.some.inj hget, hsecret])
    case isFalse hne => exact .inr ⟨id, account, hne, hget, hsecret⟩
  have hopened : ∀ secretRef, s'.Open secretRef → s.Open secretRef :=
    fun secretRef ⟨id, session, hget, hsecret⟩ => ⟨id, session, (hpending id session hget).1, hsecret⟩
  have hnew : s'.Stored record.secretRef := ⟨record.id.text, record, by rw [haccounts, if_pos rfl], rfl⟩
  subst hs'
  refine h.change (by rw [htask]; exact fun heq => ImportTask.noConfusion heq) rfl (fun id account hget => ?_)
    (fun id session hget => h.session id session (hpending id session hget).1) rfl (fun id id' account account' hget hget' hsame => ?_)
    (fun secretRef hmem hopen' => ?_) h.drawn (fun secretRef hdraft => nomatch hdraft) (fun secretRef hheld => ?_)
    (fun j _ hholds => ?_) fun secretRef hsome => ?_
  · show (s.confirmed.insert record.id.text record.secretRef)[id]? = _ ∧ _
    rw [getElem?_insert_ite]
    rw [haccounts] at hget
    split
    case isTrue heq =>
      rw [if_pos heq] at hget
      obtain rfl := Option.some.inj hget
      exact ⟨rfl, href ▸ (h.session _ _ hrow).2.1, hrecorded⟩
    case isFalse hne =>
      rw [if_neg hne] at hget
      exact h.account id account hget
  · -- No account has the reference of a session.
    have hfresh : ∀ {id account}, s.accounts.get? id = some account → record.secretRef ≠ account.secretRef :=
      fun {id account} hget heq => hunstored ⟨id, account, hget, heq.symm⟩
    rw [haccounts] at hget hget'
    split at hget
    case isTrue hid =>
      obtain rfl := Option.some.inj hget
      split at hget'
      case isTrue hid' => exact hid.symm.trans hid'
      case isFalse => exact absurd hsame (hfresh hget')
    case isFalse =>
      split at hget'
      case isTrue =>
        obtain rfl := Option.some.inj hget'
        exact absurd hsame.symm (hfresh hget)
      case isFalse => exact h.oneAccount id id' account account' hget hget' hsame
  · rcases hstored secretRef hmem with rfl | ⟨id, account, -, hget, hsecret⟩
    · obtain ⟨id, session', hget, hsecret⟩ := hopen'
      obtain ⟨hget, hne⟩ := hpending id session' hget
      have hdrawn := (h.session id session' hget).1
      rw [hsecret, hid] at hdrawn
      exact hne (Option.some.inj hdrawn).symm
    · exact h.apart secretRef ⟨id, account, hget, hsecret⟩ (hopened _ hopen')
  · -- The reference that the record had before is nobody's any more.
    obtain ⟨hprevious, hne⟩ := Option.filter_eq_some_iff.mp (Option.mem_toList.mp hheld)
    rw [← hcurrent] at hprevious
    obtain ⟨previous, hget, hsecret⟩ := Option.map_eq_some_iff.mp hprevious
    refine ⟨hsecret ▸ (h.account _ _ hget).2.2, fun hmem => ?_, fun hmem => ?_⟩
    · rcases hstored secretRef hmem with heq | ⟨id, account, hne', hget', hsecret'⟩
      · exact absurd heq.symm (of_decide_eq_true hne)
      · exact hne' (h.oneAccount _ _ _ _ hget hget' (hsecret.trans hsecret'.symm))
    · exact h.apart secretRef ⟨_, previous, hget, hsecret⟩ (hopened _ hmem)
  · refine hholds.mono (fun _ _ h => h) (fun _ h => h) (fun secretRef hreleased => ?_) fun _ _ hnot => ⟨hnot, fun h => h⟩
    refine hreleased.mono (fun _ h => h) (fun hmem => ?_) fun hmem => .inl (hopened _ hmem)
    rcases hstored secretRef hmem with rfl | ⟨id, account, -, hget, hsecret⟩
    · exact .inr hopen
    · exact .inl ⟨id, account, hget, hsecret⟩
  · rcases h.covers_or i hsome with ⟨id, account, hget, hsecret⟩ | ⟨id, session', hget, hsecret⟩ | hmem | hmem
    · by_cases heq : record.id.text = id
      · by_cases hsame : secretRef = record.secretRef
        · exact .inl (hsame ▸ hnew)
        · refine .inr (.inr (.inl (.inl ?_)))
          refine Option.mem_toList.mpr (Option.filter_eq_some_iff.mpr ⟨?_, decide_eq_true hsame⟩)
          rw [← hcurrent, heq, hget, ← hsecret]
          rfl
      · exact .inl ⟨id, account, by rw [haccounts, if_neg heq, hget], hsecret⟩
    · by_cases heq : sessionId = id
      · have hsame : session'.secretRef = record.secretRef := h.session_ref hget (heq ▸ hid)
        exact .inl (hsecret ▸ hsame ▸ hnew)
      · refine .inr (.inl ⟨id, session', ?_, hsecret⟩)
        exact (RecordTable.get?_delete ..).trans ((if_neg heq).trans hget)
    · rw [htask] at hmem
      exact (List.not_mem_nil (hmem.mem_held fun _ heq => ImportTask.noConfusion heq)).elim
    · exact .inr (.inr (.inr hmem))

/-- A confirmation of an expired session takes it away, if no account came of it. -/
theorem Orderly.expire (h : s.Orderly) (htask : s.task i = .expired pending)
    (hcurrent : ∀ account ∈ s.accounts.all, account.secretRef ≠ pending.secretRef) :
    ({ s with pending := s.pending.delete pending.id }.become i (.discarding [pending.secretRef]) : ImportSystem).Orderly := by
  obtain ⟨hid, hrecorded⟩ : s.sessions[pending.secretRef]? = some pending.id ∧ pending.secretRef ∈ s.recorded := by
    have hholds := h.tasks i
    rwa [htask] at hholds
  have hopened : ∀ secretRef, ({ s with pending := s.pending.delete pending.id } : ImportSystem).Open secretRef → s.Open secretRef :=
    fun secretRef ⟨id, session, hget, hsecret⟩ => ⟨id, session, (delete_sub hget).1, hsecret⟩
  refine h.change (by rw [htask]; exact fun heq => ImportTask.noConfusion heq) rfl h.account
    (fun id session hget => h.session id session (delete_sub hget).1) rfl h.oneAccount (fun secretRef hstored hmem => h.apart secretRef hstored (hopened _ hmem))
    h.drawn (fun secretRef hdraft => nomatch hdraft) (fun secretRef hheld => ?_) (fun j _ hholds => ?_) fun secretRef hsome => ?_
  · obtain rfl := List.mem_singleton.mp hheld
    refine ⟨hrecorded, fun ⟨id, account, hget, hsecret⟩ => ?_, fun ⟨id, session, hget, hsecret⟩ => ?_⟩
    · exact hcurrent account (RecordTable.mem_all.mpr ((RecordTable.get?_id (t := s.accounts) hget).symm ▸ hget)) hsecret
    · obtain ⟨hget, hne⟩ := delete_sub hget
      have hdrawn := (h.session id session hget).1
      rw [hsecret, hid] at hdrawn
      exact hne (Option.some.inj hdrawn).symm
  · exact hholds.mono (fun _ _ h => h) (fun _ h => h)
      (fun _ hreleased => hreleased.mono (fun _ h => h) .inl fun hmem => .inl (hopened _ hmem)) fun _ _ hnot => ⟨hnot, fun h => h⟩
  · rcases h.covers_or i hsome with hmem | ⟨id, session, hget, hsecret⟩ | hmem | hmem
    · exact .inl hmem
    · by_cases heq : pending.id = id
      · refine .inr (.inr (.inl (.inl (List.mem_singleton.mpr ?_))))
        exact hsecret.symm.trans (h.session_ref hget (heq ▸ hid))
      · refine .inr (.inl ⟨id, session, ?_, hsecret⟩)
        exact (RecordTable.get?_delete ..).trans ((if_neg heq).trans hget)
    · rw [htask] at hmem
      exact (List.not_mem_nil (hmem.mem_held fun _ heq => ImportTask.noConfusion heq)).elim
    · exact .inr (.inr (.inr hmem))

/-- A secret is deleted that is neither an account's nor a session's. -/
theorem Orderly.discard (h : s.Orderly) {secretRefs : List String}
    (htask : s.task i = .discarding (secretRef :: secretRefs)) :
    ({ s with vault := s.vault.erase secretRef }.become i (.discarding secretRefs) : ImportSystem).Orderly := by
  have hreleased : ∀ other ∈ secretRef :: secretRefs, s.Released other := by
    have hholds := h.tasks i
    rwa [htask] at hholds
  have hfirst := hreleased secretRef List.mem_cons_self
  have hvault : ∀ other : String, (s.vault.erase secretRef)[other]? = if secretRef = other then none else s.vault[other]? := fun other =>
    getElem?_erase_ite ..
  have hsaved : ∀ other, secretRef ≠ other → s.Saved other → ({ s with vault := s.vault.erase secretRef } : ImportSystem).Saved other :=
    fun other hne ⟨stored, hstored, hget⟩ => ⟨stored, hstored, (hvault other).trans ((if_neg hne).trans hget)⟩
  refine h.change (by rw [htask]; exact fun heq => ImportTask.noConfusion heq) rfl (fun id account hget => ?_) (fun id session hget => ?_) rfl
    h.oneAccount h.apart h.drawn (fun _ hdraft => nomatch hdraft) (fun other hmem => ?_) (fun j _ hholds => ?_) fun other hsome => ?_
  · refine (h.account id account hget).imp_right (And.imp_left (hsaved _ fun heq => ?_))
    exact hfirst.notStored ⟨id, account, hget, heq.symm⟩
  · refine (h.session id session hget).imp_right (And.imp_left (hsaved _ fun heq => ?_))
    exact hfirst.notOpen ⟨id, session, hget, heq.symm⟩
  · have hother := hreleased other (List.mem_cons_of_mem _ hmem)
    exact ⟨hother.recorded, hother.notStored, hother.notOpen⟩
  · refine hholds.mono (fun _ _ h => h) (fun _ h => h) (fun _ h => ⟨h.recorded, h.notStored, h.notOpen⟩) fun other _ hnot => ⟨hnot, ?_⟩
    exact hsaved other fun heq => hnot (heq ▸ hfirst.recorded)
  · have hat : (if secretRef = other then none else s.vault[other]?).isSome = true := by
      rw [← hsome]
      exact congrArg Option.isSome (hvault other).symm
    split at hat
    case isTrue => exact nomatch hat
    case isFalse hne =>
      refine (h.covers_or i hat).imp_right (Or.imp_right (Or.imp_left fun hcovers => ?_))
      rw [htask] at hcovers
      have hheld := hcovers.mem_held fun _ heq => ImportTask.noConfusion heq
      exact .inl ((List.mem_cons.mp hheld).resolve_left fun heq => hne heq.symm)

/-- A probe stores its record, if the account has its reference still. -/
theorem Orderly.restore (h : s.Orderly) (updated : ImportedAccount)
    (htask : s.task i = .committed record previousRef) (hid : updated.id = record.id) (href : updated.secretRef = record.secretRef)
    (hcurrent : (s.accounts.get? record.id.text).map (·.secretRef) = some record.secretRef) :
    ({ s with accounts := s.accounts.upsert updated }.become i (.committed updated previousRef) : ImportSystem).Orderly := by
  obtain ⟨stored, hget, hsecret⟩ := Option.map_eq_some_iff.mp hcurrent
  -- The references of accounts are the same as before.
  have hback : ∀ id account, (s.accounts.upsert updated).get? id = some account →
      ∃ old, s.accounts.get? id = some old ∧ old.secretRef = account.secretRef := by
    intro id account hfound
    rw [RecordTable.get?_upsert] at hfound
    split at hfound
    case isTrue heq =>
      obtain rfl := Option.some.inj hfound
      exact ⟨stored, by rw [← heq, hid, hget], hsecret.trans href.symm⟩
    case isFalse => exact ⟨account, hfound, rfl⟩
  have hforth : ∀ secretRef, s.Stored secretRef → ({ s with accounts := s.accounts.upsert updated } : ImportSystem).Stored secretRef := by
    rintro secretRef ⟨id, account, hfound, hsame⟩
    by_cases heq : updated.id.text = id
    · refine ⟨id, updated, (RecordTable.get?_upsert ..).trans (if_pos heq), ?_⟩
      rw [← heq, hid, hget] at hfound
      rw [href, ← hsecret, Option.some.inj hfound, hsame]
    · exact ⟨id, account, (RecordTable.get?_upsert ..).trans ((if_neg heq).trans hfound), hsame⟩
  have hstored : ∀ secretRef, ({ s with accounts := s.accounts.upsert updated } : ImportSystem).Stored secretRef → s.Stored secretRef := by
    rintro secretRef ⟨id, account, hfound, hsame⟩
    obtain ⟨old, hold, heq⟩ := hback id account hfound
    exact ⟨id, old, hold, heq.trans hsame⟩
  have hreleased : ∀ secretRef, s.Released secretRef → ({ s with accounts := s.accounts.upsert updated } : ImportSystem).Released secretRef :=
    fun secretRef hreleased => hreleased.mono (fun _ h => h) (fun hmem => .inl (hstored _ hmem)) .inl
  have hheld : (ImportTask.committed updated previousRef).held = (ImportTask.committed record previousRef).held := by
    show (previousRef.filter (· ≠ updated.secretRef)).toList = (previousRef.filter (· ≠ record.secretRef)).toList
    rw [href]
  have hholds : ∀ secretRef ∈ (ImportTask.committed record previousRef).held, s.Released secretRef := by
    have hholds := h.tasks i
    rwa [htask] at hholds
  refine h.change (by rw [htask]; exact fun heq => ImportTask.noConfusion heq) rfl (fun id account hfound => ?_) h.session rfl
    (fun id id' account account' hfound hfound' hsame => ?_) (fun secretRef hmem => h.apart secretRef (hstored _ hmem)) h.drawn
    (fun _ hdraft => nomatch hdraft) (fun secretRef hmem => hreleased _ (hholds _ (hheld ▸ hmem))) (fun j _ hother => ?_) fun secretRef hsome => ?_
  · obtain ⟨old, hold, heq⟩ := hback id account hfound
    exact heq ▸ h.account id old hold
  · obtain ⟨old, hold, heq⟩ := hback id account hfound
    obtain ⟨old', hold', heq'⟩ := hback id' account' hfound'
    exact h.oneAccount id id' old old' hold hold' (heq.trans (hsame.trans heq'.symm))
  · exact hother.mono (fun _ _ h => h) (fun _ h => h) hreleased fun _ _ hnot => ⟨hnot, fun h => h⟩
  · refine (h.covers_or i hsome).imp (hforth secretRef) (Or.imp_right (Or.imp_left fun hcovers => ?_))
    rw [htask] at hcovers
    exact .inl (hheld.symm ▸ hcovers.mem_held fun _ heq => ImportTask.noConfusion heq)

theorem get?_deletePending {ids : List String} {id : String} (h : id ∉ ids) : (s.deletePending ids).get? id = s.pending.get? id := by
  unfold ImportSystem.deletePending
  generalize s.pending = pending
  induction ids generalizing pending with
  | nil => rfl
  | cons first ids ih =>
    rw [List.foldl_cons, ih (List.not_mem_of_not_mem_cons h), RecordTable.get?_delete,
      if_neg fun heq => List.ne_of_not_mem_cons h heq.symm]

/-- A clean-up takes away the sessions that have expired. -/
theorem Orderly.clean (h : s.Orderly) (nowMs : Nat) :
    ({ s with pending := s.deletePending ((s.stale nowMs).map PendingImport.id) }.spawn
      (.discarding ((s.stale nowMs).map PendingImport.secretRef)) : ImportSystem).Orderly := by
  have hstale : ∀ session ∈ s.stale nowMs, s.pending.get? session.id = some session :=
    fun session hmem => RecordTable.mem_all.mp (List.mem_filter.mp hmem).1
  refine h.launch rfl rfl rfl (fun _ h => h) (fun _ _ hget => (deletePending_sub hget).1) (fun _ _ h => h) h.oneSession rfl
    (fun _ hdraft => nomatch hdraft) (fun secretRef hheld => ?_) (fun _ h => h) fun secretRef hopen => ?_
  · obtain ⟨session, hmem, rfl⟩ := List.mem_map.mp hheld
    obtain ⟨hid, -, hrecorded⟩ := h.session _ _ (hstale session hmem)
    refine ⟨hrecorded, fun hstored => h.apart _ hstored ⟨_, session, hstale session hmem, rfl⟩, fun ⟨id, other, hget, hsame⟩ => ?_⟩
    obtain ⟨hget, hnot⟩ := deletePending_sub hget
    have hother := (h.session _ _ hget).1
    rw [hsame, hid] at hother
    exact hnot (Option.some.inj hother ▸ List.mem_map_of_mem hmem)
  · obtain ⟨id, session, hget, hsame⟩ := hopen
    by_cases hmem : id ∈ (s.stale nowMs).map PendingImport.id
    · obtain ⟨found, hfound, rfl⟩ := List.mem_map.mp hmem
      have heq : session = found := Option.some.inj (hget.symm.trans (hstale found hfound))
      exact .inr (List.mem_map.mpr ⟨found, hfound, heq ▸ hsame⟩)
    · exact .inl ⟨id, session, (get?_deletePending hmem).trans hget, hsame⟩

/-- A preview starts, and draws its reference and the id of its session. -/
theorem Orderly.begin (h : s.Orderly) {call : PreviewCall} {hint : String} {duplicate : Option ImportedAccount} {hints : Table String String}
    (hnew : s.drawsNew call duplicate = true) :
    ({ s with
      hints
      sessions := s.sessions.insert (call.secretRef duplicate) call.names.sessionId }.spawn (.loading call hint duplicate) :
        ImportSystem).Orderly := by
  obtain ⟨hand, hvalues⟩ := Bool.and_eq_true_iff.mp hnew
  have hunused : s.sessions[call.secretRef duplicate]? = none := Option.isNone_iff_eq_none.mp (Bool.and_eq_true_iff.mp hand).2
  have hunnamed : ∀ secretRef : String, s.sessions[secretRef]? ≠ some call.names.sessionId := fun secretRef hget =>
    absurd rfl (of_decide_eq_true (List.all_eq_true.mp hvalues _ (mem_valuesOf.mpr ⟨secretRef, hget⟩)))
  have hsessions : ∀ secretRef : String, (s.sessions.insert (call.secretRef duplicate) call.names.sessionId)[secretRef]? =
      if call.secretRef duplicate = secretRef then some call.names.sessionId else s.sessions[secretRef]? :=
    fun secretRef => getElem?_insert_ite ..
  refine h.launch rfl rfl rfl (fun _ h => h) (fun _ _ h => h) (fun _ _ => getElem?_insert_new hunused) (fun secretRef secretRef' id hget hget' => ?_) rfl
    (fun secretRef hdraft => ?_) ⟨(hsessions _).trans (if_pos rfl), fun hmem => ?_⟩ (fun _ h => h) fun _ => .inl
  · have hat := (hsessions secretRef).symm.trans hget
    have hat' := (hsessions secretRef').symm.trans hget'
    split at hat
    case isTrue heq =>
      split at hat'
      case isTrue heq' => exact heq.symm.trans heq'
      case isFalse => exact absurd (hat'.trans hat.symm) (hunnamed _)
    case isFalse =>
      split at hat'
      case isTrue => exact absurd (hat.trans hat'.symm) (hunnamed _)
      case isFalse => exact h.oneSession _ _ _ hat hat'
  · obtain rfl := Option.some.inj hdraft
    exact hunused
  · exact absurd (h.drawn _ hmem) (by rw [hunused]; exact Bool.false_ne_true)

/-- A confirmation starts, on a session that it has found. -/
theorem Orderly.find (h : s.Orderly) {sessionId : String} (hget : s.pending.get? sessionId = some pending)
    (task : ImportTask) (hdraft : task.draft = none)
    (hholds : s.sessions[pending.secretRef]? = some pending.id ∧ pending.secretRef ∈ s.recorded → s.Holds task) : (s.spawn task).Orderly := by
  have hid : pending.id = sessionId := RecordTable.get?_id (t := s.pending) hget
  obtain ⟨hsession, -, hrecorded⟩ := h.session _ _ hget
  exact h.launch rfl rfl rfl (fun _ h => h) (fun _ _ h => h) (fun _ _ h => h) h.oneSession rfl
    (fun _ hsome => absurd (hdraft.symm.trans hsome) nofun) (hholds ⟨hid ▸ hsession, hrecorded⟩) (fun _ h => h) fun _ => .inl

theorem orderly_advance (h : s.Orderly) (i nowMs : Nat) (hok : s.ActsOnRead (s.task i)) : (s.advance parts i nowMs).Orderly := by
  have hholds := h.tasks i
  have hturn : ∀ task : ImportTask, s.task i ≠ .finished → s.Holds task →
      (∀ secretRef, task.draft = some secretRef → (s.task i).draft = some secretRef) →
      (∀ secretRef, Covers (s.task i) secretRef → Covers task secretRef) → (s.become i task).Orderly := fun _ hne => h.turn hne
  unfold ImportSystem.advance
  cases htask : s.task i with
  | loading call hint duplicate =>
    rw [htask] at hholds hturn
    have hbusy : ImportTask.loading call hint duplicate ≠ .finished := fun heq => ImportTask.noConfusion heq
    have hcovers : ∀ {task : ImportTask} secretRef, Covers (.loading call hint duplicate) secretRef → Covers task secretRef := by
      intro task secretRef hcovers
      exact (List.not_mem_nil (hcovers.mem_held fun _ heq => ImportTask.noConfusion heq)).elim
    dsimp only
    split
    · exact hturn .finished hbusy trivial (fun _ hdraft => nomatch hdraft) hcovers
    · cases hprepare : prepareAccountImport parts call duplicate _ with
      | error e => exact hturn .finished hbusy trivial (fun _ hdraft => nomatch hdraft) hcovers
      | ok prepared =>
        obtain ⟨pending, credential⟩ := prepared
        have hprepared := prepareAccountImport_ok parts hprepare
        refine hturn (.saving pending credential) hbusy ?_ (fun secretRef hdraft => ?_) hcovers
        · show s.sessions[pending.secretRef]? = some pending.id ∧ pending.secretRef ∉ s.recorded
          rw [hprepared.secretRef, hprepared.id]
          exact hholds
        · exact (congrArg some hprepared.secretRef.symm).trans hdraft
  | saving pending credential => exact h.save htask
  | recording pending => exact h.record htask
  | matched pending addToPool =>
    rw [htask] at hholds hturn
    refine hturn (.building _ _ _) (fun heq => ImportTask.noConfusion heq) hholds (fun _ hdraft => nomatch hdraft) fun secretRef hcovers => ?_
    exact (List.not_mem_nil (hcovers.mem_held fun _ heq => ImportTask.noConfusion heq)).elim
  | building record sessionId previousRef =>
    rw [htask] at hok
    dsimp only
    cases hrow : s.pending.get? sessionId with
    | none =>
      rw [htask] at hturn
      refine hturn .finished (fun heq => ImportTask.noConfusion heq) trivial (fun _ hdraft => nomatch hdraft) fun secretRef hcovers => ?_
      exact (List.not_mem_nil (hcovers.mem_held fun _ heq => ImportTask.noConfusion heq)).elim
    | some session => exact h.commit htask hrow (hok (by rw [hrow]; rfl))
  | committed record previousRef =>
    rw [htask] at hholds hturn
    refine hturn (.discarding _) (fun heq => ImportTask.noConfusion heq) hholds (fun _ hdraft => nomatch hdraft) fun secretRef hcovers => ?_
    exact .inl (hcovers.mem_held fun _ heq => ImportTask.noConfusion heq)
  | expired pending =>
    rw [htask] at hok
    exact h.expire htask hok
  | discarding secretRefs =>
    cases secretRefs with
    | nil =>
      rw [htask] at hturn
      refine hturn .finished (fun heq => ImportTask.noConfusion heq) trivial (fun _ hdraft => nomatch hdraft) fun secretRef hcovers => ?_
      exact (List.not_mem_nil (hcovers.mem_held fun _ heq => ImportTask.noConfusion heq)).elim
    | cons secretRef secretRefs => exact h.discard htask
  | finished => exact h

theorem orderly_step (h : s.Orderly) (op : ImportStep) (hok : s.ActsOnCurrent op) : (s.step parts op).Orderly := by
  cases op with
  | preview call =>
    unfold ImportSystem.step
    dsimp only
    cases cleanIdentifier call.input.chatgptAccountId "account id" with
    | error e => exact h
    | ok chatgptAccountId =>
      dsimp only
      split
      case isTrue hnew => exact h.begin hnew
      case isFalse => exact h
  | cleanup nowMs => exact h.clean nowMs
  | confirm sessionId batchSessionId addToPool nowMs =>
    unfold ImportSystem.step
    dsimp only
    cases hget : s.pending.get? sessionId with
    | none => exact h
    | some pending =>
      dsimp only
      split
      · exact h.find hget (.expired pending) rfl fun hknown => hknown
      · split
        · exact h
        · exact h.find hget (.matched pending addToPool) rfl fun hknown => hknown
  | next i nowMs => exact orderly_advance h i nowMs hok
  | update i update =>
    have hlast : s.ProbesLast (s.task i) := hok
    unfold ImportSystem.step
    dsimp only
    cases htask : s.task i with
    | committed record previousRef =>
      rw [htask] at hlast
      have hsettings := update.settings record.toServerAccountRecord
      exact h.restore { record with toServerAccountRecord := update.apply record.toServerAccountRecord } htask (update.id _)
        (congrArg (·.secretRef) hsettings) hlast
    | _ => exact h

theorem orderly_empty : ({} : ImportSystem).Orderly := by
  have hempty : ∀ {ρ : Type} {idOf : ρ → String} (id : String), (RecordTable.empty : RecordTable ρ idOf).get? id = none :=
    fun _ => ExtTreeMap.getElem?_empty
  have hvault : ∀ {k : String}, (∅ : Table String String)[k]? = none := ExtTreeMap.getElem?_empty
  refine ⟨fun id account hget => ?_, fun id session hget => ?_, fun secretRef _ id hget => ?_, fun id _ account _ hget => ?_,
    fun secretRef ⟨id, account, hget, _⟩ => ?_, fun secretRef hmem => (List.not_mem_nil hmem).elim,
    fun i _ secretRef hdraft => ?_, fun i => ?_, fun secretRef hsome => ?_⟩
  · exact absurd ((hempty id).symm.trans hget) nofun
  · exact absurd ((hempty id).symm.trans hget) nofun
  · exact absurd (hvault.symm.trans hget) nofun
  · exact absurd ((hempty id).symm.trans hget) nofun
  · exact absurd ((hempty id).symm.trans hget) nofun
  · exact nomatch hdraft
  · exact trivial
  · exact absurd hsome (by rw [show ({} : ImportSystem).vault[secretRef]? = none from hvault]; exact Bool.false_ne_true)

/-- When no call is under way, nothing is left to be deleted. -/
theorem Orderly.secretsInOrder (h : s.Orderly) (hquiet : s.Quiet) : s.SecretsInOrder where
  secret id account hget := ⟨(h.account id account hget).1, (h.account id account hget).2.1⟩
  deleted secretRef hsome := by
    have hfinished : ∀ i, s.task i = .finished := by
      intro i
      rcases task_mem (i := i) rfl with hmem | heq
      · have hdone := List.all_eq_true.mp hquiet _ hmem
        generalize s.task i = task at hdone
        cases task with
        | finished => rfl
        | _ => exact nomatch hdone
      · exact heq
    rcases h.covers hsome with hmem | hmem | ⟨i, hcovers⟩
    · exact .inl hmem
    · exact .inr hmem
    · rw [hfinished i] at hcovers
      exact (List.not_mem_nil (hcovers.mem_held fun _ heq => ImportTask.noConfusion heq)).elim

end

end ImportSystem

/-- Whenever no call is under way, accounts have the secrets of their last imports and no other secret is left, as
long as every commit, expiry and probe acts on what is still so. -/
theorem imports_keep_secrets (parts : ImportParts) (ops : List ImportStep)
    (hok : StepsMeet (ImportSystem.step parts) ImportSystem.ActsOnCurrent {} ops) :
    ∀ before after, ops = before ++ after → (run (ImportSystem.step parts) {} before).Quiet →
      (run (ImportSystem.step parts) {} before).SecretsInOrder := by
  rintro before after rfl hquiet
  have horderly := run_invariant (I := ImportSystem.Orderly) (fun s op h hok => ImportSystem.orderly_step h op hok)
    ImportSystem.orderly_empty (StepsMeet.append.mp hok).1
  exact horderly.secretsInOrder hquiet

theorem imports_in_turn_keep_secrets :
    (run (ImportSystem.step sampleImportParts) {} importedInTurn).Quiet ∧
      (run (ImportSystem.step sampleImportParts) {} importedInTurn).SecretsInOrder :=
  have hquiet : (run (ImportSystem.step sampleImportParts) {} importedInTurn).Quiet := by decide +kernel
  ⟨hquiet, imports_keep_secrets sampleImportParts importedInTurn (by decide +kernel) importedInTurn [] (List.append_nil _).symm hquiet⟩

/-! ## Confirmations that overlap -/

/-- An account, and two sessions for it. -/
def twoSessions : List ImportStep :=
  .preview (samplePreview ⟨"account_1", firstId_valid⟩ "import_1" "first") :: alone 0 ++ .confirm "import_1" none true 0 :: alone 1 ++
    .preview (samplePreview ⟨"account_2", secondId_valid⟩ "import_2" "second") :: alone 2 ++
    .preview (samplePreview ⟨"account_3", by decide⟩ "import_3" "third") :: alone 3

def unchanged : MetadataUpdate := ⟨id, fun _ => rfl, fun _ => rfl⟩

/-- The probe of the second import ends when the third import is done. -/
def probedLate : List ImportStep :=
  twoSessions ++ [.confirm "import_2" none true 0, .next 4 0, .next 4 0] ++ .confirm "import_3" none true 0 :: alone 5 ++
    .update 4 unchanged :: alone 4

/-- Both confirmations read the account before one of them commits. -/
def readTogether : List ImportStep :=
  twoSessions ++ [.confirm "import_2" none true 0, .confirm "import_3" none true 0, .next 4 0, .next 5 0] ++ alone 4 ++ alone 5

/-- A session is confirmed when it is as old as it may be, and once more a millisecond later. -/
def confirmedAtLimit : List ImportStep :=
  .preview (samplePreview ⟨"account_1", firstId_valid⟩ "import_1" "first") :: alone 0 ++
    [.confirm "import_1" none true importLifetimeMs, .confirm "import_1" none true (importLifetimeMs + 1)] ++ alone 1 ++ alone 2

namespace ImportSystem

variable {s : ImportSystem}

theorem not_inOrder_of_lost {id : String} (hlost : (s.accounts.get? id).map (fun account => s.vault[account.secretRef]?) = some none) :
    ¬s.SecretsInOrder := by
  intro h
  obtain ⟨account, hget, hnone⟩ := Option.map_eq_some_iff.mp hlost
  obtain ⟨credential, -, hsome⟩ := (h.secret id account hget).2
  exact nomatch hnone.symm.trans hsome

theorem not_inOrder_of_left {secretRef : String} (hleft : s.vault[secretRef]?.isSome = true)
    (haccounts : ∀ account ∈ s.accounts.all, account.secretRef ≠ secretRef) (hpending : s.pending.all = []) : ¬s.SecretsInOrder := by
  intro h
  rcases h.deleted secretRef hleft with ⟨id, account, hget, href⟩ | ⟨id, session, hget, -⟩
  · exact haccounts account (RecordTable.mem_all.mpr ((RecordTable.get?_id (t := s.accounts) hget).symm ▸ hget)) href
  · have hmem : session ∈ s.pending.all := RecordTable.mem_all.mpr ((RecordTable.get?_id (t := s.pending) hget).symm ▸ hget)
    exact List.not_mem_nil (hpending ▸ hmem)

end ImportSystem

/-- A late probe and a second confirmation at the limit lose an account's secret; two confirmations that read the
account together leave a secret that nobody refers to. -/
theorem overlapping_confirmations : [probedLate, readTogether, confirmedAtLimit].Forall fun ops =>
      (run (ImportSystem.step sampleImportParts) {} ops).Quiet ∧ ¬(run (ImportSystem.step sampleImportParts) {} ops).SecretsInOrder := by
  refine List.forall_iff_forall_mem.mpr fun ops hmem => ?_
  have hcases : ops = probedLate ∨ ops = readTogether ∨ ops = confirmedAtLimit := by simpa using hmem
  rcases hcases with rfl | rfl | rfl
  · exact ⟨by decide +kernel, ImportSystem.not_inOrder_of_lost (by decide +kernel : (ImportSystem.accounts _ |>.get? "account_1").map _ = some none)⟩
  · exact ⟨by decide +kernel, ImportSystem.not_inOrder_of_left (by decide +kernel : (ImportSystem.vault _)["account:account_1:import_2"]?.isSome = true)
      (by decide +kernel) (by decide +kernel)⟩
  · exact ⟨by decide +kernel, ImportSystem.not_inOrder_of_lost (by decide +kernel : (ImportSystem.accounts _ |>.get? "account_1").map _ = some none)⟩

end Zenith.Server
