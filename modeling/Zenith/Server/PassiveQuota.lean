import Zenith.Lib.Runs
import Zenith.Quota.PassiveHeaders
import Zenith.Server.AccountEdits
import Zenith.Server.Convergence

/-!
# Quota refreshes and quota seen in passing

Who writes the quota of a stored account: a refresh, which stores the whole record it has worked on, and the usage
writer, which takes over the snapshot of a usage event: the quota of the record its runtime was built from, merged
with the headers seen since.

`History` keeps what the source does not: the last successful refresh of each account and the headers since, and of
every quota that is held somewhere, how many refreshes had succeeded when it was read. `refreshes_stand` says which
runs keep the last refresh. A response on a runtime that has been replaced can undo it (`refresh_undone`).

Deletions, edits, imports and the other reads of a rebuild are left out. The steps carry what the quota endpoint, the
vault and the token authority answer.
-/

namespace Zenith.Server

open Std Zenith.Accounts Zenith.Quota Zenith.Records Zenith.Runs Zenith.Runtime Zenith.Scheduler Zenith.Tables

/-! ## Refreshes -/

/-- How the request of a refresh ended. -/
inductive QuotaResult
  | updated (quota : QuotaSnapshot)
  | failed (error : QuotaErrorState)
deriving DecidableEq, Repr

/-- The result is `none` where it could not be normalized, or could not be stored. -/
structure RefreshReply where
  result : Option QuotaResult
  subscription : Subscription := {}
  health : AccountHealthState := .healthy
  lastErrorCode : Option String := none
  authState : Option AccountAuthState := none
  accessOnlyRejected : Bool := false
deriving DecidableEq, Repr

/-- `reduce_account_quota`: a failed refresh keeps the quota and notes the error. -/
def QuotaResult.reduce (previous : QuotaSnapshot) : QuotaResult → QuotaSnapshot
  | .updated quota => quota
  | .failed error => { previous with error := some error }

def RefreshReply.apply (reply : RefreshReply) (record : ServerAccountRecord) (result : QuotaResult) : ServerAccountRecord :=
  let update : AccountQuotaUpdate :=
    { quota := result.reduce record.quota
      subscription := reply.subscription
      health := reply.health
      lastErrorCode := reply.lastErrorCode }
  record.withQuota update
    { update := some update, authState := reply.authState, accessOnlyRejected := reply.accessOnlyRejected }

/-- A refresh that waits for the quota, or for the models after it had the quota or not, or that is done but may start
over after a weekly reset. -/
inductive RefreshTask
  | quota (original : ServerAccountRecord) (refreshModels : Bool)
  | models (record : ServerAccountRecord) (hasQuota : Bool)
  | refreshed (record : ServerAccountRecord)
  | done

def RefreshTask.record? : RefreshTask → Option ServerAccountRecord
  | .quota record _ | .models record _ | .refreshed record => some record
  | .done => none

/-! ## What a runtime is built with -/

theorem foldlM_invariant {α σ ε : Type} {next : σ → α → Except ε σ} {P : σ → Prop} (items : List α)
    (hnext : ∀ s item s', item ∈ items → P s → next s item = .ok s' → P s') {s s' : σ} (hs : P s)
    (hfold : items.foldlM next s = .ok s') : P s' := by
  induction items generalizing s with
  | nil => exact Except.ok.inj hfold ▸ hs
  | cons item items ih =>
    rw [List.foldlM_cons] at hfold
    obtain ⟨s₁, hitem, hfold⟩ := bind_eq_ok.mp hfold
    exact ih (fun s item' s' hmem => hnext s item' s' (List.mem_cons_of_mem _ hmem))
      (hnext s item s₁ List.mem_cons_self hs hitem) hfold

section
variable {parts : BuildParts}

theorem passiveQuotas_addSource {r r' : GatewayRuntime × List String} {source : RuntimeSource}
    (h : addSource parts r source = .ok r') (hempty : r.1.passiveQuotas = ∅) : r'.1.passiveQuotas = ∅ := by
  unfold addSource at h
  obtain ⟨-, -, h⟩ := bind_eq_ok.mp h
  obtain ⟨-, -, h⟩ := bind_eq_ok.mp h
  obtain ⟨-, -, h⟩ := bind_eq_ok.mp h
  obtain ⟨-, -, h⟩ := bind_eq_ok.mp h
  obtain ⟨bindings, -, h⟩ := bind_eq_ok.mp h
  obtain ⟨-, -, h⟩ := bind_eq_ok.mp h
  obtain ⟨gateway, hgateway, h⟩ := bind_eq_ok.mp h
  obtain rfl := Except.ok.inj h
  refine @foldlM_invariant _ _ _ _ (fun g : GatewayRuntime => g.passiveQuotas = ∅) bindings ?_ _ _ hempty hgateway
  intro g binding g' _ hg hbinding
  unfold addBinding at hbinding
  split at hbinding
  · exact Except.ok.inj hbinding ▸ hg
  · dsimp only at hbinding
    split at hbinding
    · cases hbinding
    · obtain rfl := Except.ok.inj hbinding
      exact hg

theorem passiveQuotas_addAccount {sourceIds : List String} {g g' : GatewayRuntime} {account : RuntimeChatGptAccount}
    (h : addAccount parts sourceIds g account = .ok g') :
    g'.passiveQuotas = g.passiveQuotas.insert account.record.id.text
      { snapshot := account.record.quota, lastPersistHintMs := account.record.quota.updatedAtMs.getD 0 } := by
  unfold addAccount at h
  dsimp only at h
  obtain ⟨-, -, h⟩ := bind_eq_ok.mp h
  obtain ⟨-, -, h⟩ := bind_eq_ok.mp h
  obtain ⟨-, -, h⟩ := bind_eq_ok.mp h
  obtain ⟨-, -, h⟩ := bind_eq_ok.mp h
  obtain ⟨-, -, h⟩ := bind_eq_ok.mp h
  obtain ⟨-, -, h⟩ := bind_eq_ok.mp h
  obtain rfl := Except.ok.inj h
  rfl

/-- What a runtime knows of quotas at first is what the records said. -/
theorem passiveQuotas_fromMixedPool {sources : List RuntimeSource} {accounts : List RuntimeChatGptAccount}
    {keys : List RuntimeKey} {settings : RuntimeSettings} {r : ServerRuntime}
    (h : fromMixedPool parts sources accounts keys settings = .ok r) {id : String} {state : PassiveQuotaState}
    (hstate : r.gateway.passiveQuotas[id]? = some state) :
    ∃ account ∈ accounts, account.record.id.text = id ∧ state.snapshot = account.record.quota := by
  unfold fromMixedPool at h
  dsimp only at h
  obtain ⟨-, -, h⟩ := bind_eq_ok.mp h
  obtain ⟨-, -, h⟩ := bind_eq_ok.mp h
  obtain ⟨_, -, h⟩ := bind_eq_ok.mp h
  obtain ⟨planOrder, -, h⟩ := bind_eq_ok.mp h
  obtain ⟨⟨gateway, sourceIds⟩, hsources, h⟩ := bind_eq_ok.mp h
  obtain ⟨gateway', haccounts, h⟩ := bind_eq_ok.mp h
  obtain ⟨-, -, h⟩ := bind_eq_ok.mp h
  obtain ⟨-, -, h⟩ := bind_eq_ok.mp h
  obtain ⟨_, -, h⟩ := bind_eq_ok.mp h
  obtain rfl := Except.ok.inj h
  have hempty : gateway.passiveQuotas = ∅ :=
    @foldlM_invariant _ _ _ _ (fun r : GatewayRuntime × List String => r.1.passiveQuotas = ∅) sources
      (fun _ _ _ _ hg hsource => passiveQuotas_addSource hsource hg) _ _ rfl hsources
  refine @foldlM_invariant _ _ _ _ (fun g : GatewayRuntime => ∀ (id : String) (state : PassiveQuotaState),
    g.passiveQuotas[id]? = some state → ∃ account ∈ accounts, account.record.id.text = id ∧
      state.snapshot = account.record.quota) accounts ?_ _ _ ?_ haccounts id state hstate
  · intro g account g' hmem hg hadd id state hget
    rw [passiveQuotas_addAccount hadd, getElem?_insert_ite] at hget
    split at hget
    case isTrue hid =>
      obtain rfl := Option.some.inj hget
      exact ⟨account, hmem, hid, rfl⟩
    case isFalse => exact hg id state hget
  · intro id state hget
    rw [hempty, ExtTreeMap.getElem?_empty] at hget
    cases hget

end

/-- Headers change what a runtime knows of one account, and only by merging. -/
theorem passiveQuotas_observe {g : GatewayRuntime} {id id' : String} {accepted : Bool} {headers : CodexHeaders}
    {nowMs : Nat} {state : PassiveQuotaState}
    (h : (g.observeCodexQuotaHeaders id accepted (mergeCodexQuotaHeaders · headers) nowMs).1.passiveQuotas[id']? = some state) :
    g.passiveQuotas[id']? = some state ∨ accepted = true ∧ id' = id ∧
      ∃ before, g.passiveQuotas[id]? = some before ∧ state.snapshot = before.snapshot.observe headers := by
  unfold GatewayRuntime.observeCodexQuotaHeaders at h
  split at h
  · exact .inl h
  · next hguard =>
    cases hbefore : g.passiveQuotas[id]? with
    | none =>
      rw [hbefore] at h
      exact .inl h
    | some before =>
      rw [hbefore] at h
      dsimp only at h
      cases hmerge : mergeCodexQuotaHeaders before.snapshot headers with
      | none =>
        rw [hmerge] at h
        exact .inl h
      | some merged =>
        rw [hmerge] at h
        dsimp only at h
        split at h
        · exact .inl h
        · dsimp only at h
          rw [getElem?_insert_ite] at h
          split at h
          case isTrue hid =>
            obtain rfl := Option.some.inj h
            refine .inr ⟨?_, hid.symm, before, rfl, ?_⟩
            · cases accepted with
              | true => rfl
              | false => exact absurd rfl hguard
            · unfold QuotaSnapshot.observe
              rw [hmerge, Option.getD_some]
          case isFalse => exact .inl h

/-- Taking a snapshot leaves the snapshots as they are, and gives one of them. -/
theorem passiveQuotas_take {g : GatewayRuntime} {id : String} {nowMs : Nat} :
    (∀ (id' : String) (state : PassiveQuotaState), (g.takePassiveQuotaSnapshot id nowMs).1.passiveQuotas[id']? = some state →
      ∃ before : PassiveQuotaState, g.passiveQuotas[id']? = some before ∧ state.snapshot = before.snapshot) ∧
    ∀ snapshot, (g.takePassiveQuotaSnapshot id nowMs).2 = some snapshot →
      ∃ before : PassiveQuotaState, g.passiveQuotas[id]? = some before ∧ snapshot = before.snapshot := by
  unfold GatewayRuntime.takePassiveQuotaSnapshot
  cases hbefore : g.passiveQuotas[id]? with
  | none => exact ⟨fun id' state hget => ⟨state, hget, rfl⟩, fun snapshot hnone => by cases hnone⟩
  | some before =>
    dsimp only
    split
    · exact ⟨fun id' state hget => ⟨state, hget, rfl⟩, fun snapshot hnone => by cases hnone⟩
    · refine ⟨fun id' state hget => ?_, fun snapshot hsome => ⟨before, rfl, (Option.some.inj hsome).symm⟩⟩
      dsimp only at hget
      rw [getElem?_insert_ite] at hget
      split at hget
      case isTrue hid =>
        obtain rfl := Option.some.inj hget
        exact ⟨before, hid ▸ hbefore, rfl⟩
      case isFalse => exact ⟨state, hget, rfl⟩

/-! ## The system -/

/-- What the system has been told of each account's quota. The source keeps no such record. -/
structure History where
  /-- How many refreshes have succeeded, and how many had, with it, when the last one of an account did. -/
  refreshes : Nat := 0
  last : String → Nat := fun _ => 0
  quota : String → QuotaSnapshot
  /-- The headers since the last refresh. -/
  observed : String → List CodexHeaders := fun _ => []

def History.refreshed (h : History) (id : String) (quota : QuotaSnapshot) : History where
  refreshes := h.refreshes + 1
  last := Function.update h.last id (h.refreshes + 1)
  quota := Function.update h.quota id quota
  observed := Function.update h.observed id []

def History.saw (h : History) (id : String) (headers : CodexHeaders) : History :=
  { h with observed := Function.update h.observed id (h.observed id ++ [headers]) }

/-- A usage event in the queue of the usage writer. -/
structure AccountUsage where
  accountId : String
  usage : QueuedUsage
  readAt : Nat

/-- `rebuilds` have read the records and will install a runtime; `runtimes` are those that were installed, as long as a
request may still use them. Each holds, beside the quotas, when these were read. -/
structure QuotaSystem where
  accounts : AccountTable
  tasks : List (RefreshTask × Nat) := []
  rebuilds : List (List ServerAccountRecord × Nat) := []
  runtimes : List (GatewayRuntime × Nat) := []
  queue : List AccountUsage := []
  history : History

inductive QuotaStep
  | refresh (id : String) (refreshModels : Bool)
  | quotaReply (task : Nat) (reply : RefreshReply)
  | modelsReply (task : Nat) (reply : ModelsReply)
  | resetApplied (task : Nat)
  | readAccounts
  | install (rebuild : Nat) (sources : List RuntimeSource) (accounts : List RuntimeChatGptAccount) (keys : List RuntimeKey)
      (settings : RuntimeSettings)
  | headers (runtime : Nat) (id : String) (accepted : Bool) (headers : CodexHeaders)
  | finish (runtime : Nat) (id : String) (observation : AccountUsageObservation) (nowMs : Nat) (delivered : Bool)
  | persist (count : Nat) (access : String → AccountAccessState × Option AccountAuthState)

theorem persistUsage_id (accessState : AccountAccessState) (successfulAuthState : Option AccountAuthState)
    (queued : QueuedUsage) (record : ServerAccountRecord) :
    (persistUsage accessState successfulAuthState record queued).id.text = record.id.text :=
  congrArg RecordId.text (AccountSystem.onlyUsed_persistUsage accessState successfulAuthState record queued).1

/-- One event of a batch. The events of a batch are stored account by account, which leaves the order of those of one
account. -/
def persistEvent (access : String → AccountAccessState × Option AccountAuthState) (accounts : AccountTable)
    (queued : AccountUsage) : AccountTable :=
  accounts.update queued.accountId
    (fun record => persistUsage (access queued.accountId).1 (access queued.accountId).2 record queued.usage)
    (persistUsage_id _ _ queued.usage)

namespace QuotaSystem

def start (accounts : AccountTable) : QuotaSystem where
  accounts
  history := { quota := fun id => ((accounts.get? id).map (·.quota)).getD {} }

variable (parts : BuildParts) (s : QuotaSystem)

def task (i : Nat) : RefreshTask × Nat := s.tasks.getD i (.done, 0)

/-- One step. A step that its task or its runtime cannot take changes nothing. -/
def step : QuotaStep → QuotaSystem
  | .refresh id refreshModels =>
    match s.accounts.get? id with
    | none => s
    | some record => { s with tasks := s.tasks ++ [(.quota record refreshModels, s.history.refreshes)] }
  | .quotaReply i reply =>
    match s.task i with
    | (.quota original refreshModels, readAt) =>
      match reply.result with
      | none => { s with tasks := s.tasks.set i (if refreshModels then .models original false else .done, readAt) }
      | some result =>
        let record := reply.apply original result
        let task := if refreshModels then .models record true else .refreshed record
        match result with
        | .updated quota =>
          { s with
            accounts := s.accounts.upsert record
            tasks := s.tasks.set i (task, s.history.refreshes + 1)
            history := s.history.refreshed original.id.text quota }
        | .failed _ => { s with accounts := s.accounts.upsert record, tasks := s.tasks.set i (task, readAt) }
    | _ => s
  | .modelsReply i reply =>
    match s.task i with
    | (.models record hasQuota, readAt) =>
      let record := record.withModels reply
      { s with
        accounts := s.accounts.upsert record
        tasks := s.tasks.set i (if hasQuota then .refreshed record else .done, readAt) }
    | _ => s
  | .resetApplied i =>
    match s.task i with
    | (.refreshed record, readAt) => { s with tasks := s.tasks.set i (.quota record false, readAt) }
    | _ => s
  | .readAccounts => { s with rebuilds := s.rebuilds ++ [(s.accounts.all, s.history.refreshes)] }
  | .install i sources accounts keys settings =>
    match s.rebuilds[i]? with
    | none => s
    | some (records, readAt) =>
      -- A runtime account keeps the record it was built from.
      if accounts.all fun account => decide (account.record ∈ records) then
        match fromMixedPool parts sources accounts keys settings with
        | .error _ => { s with rebuilds := s.rebuilds.eraseIdx i }
        | .ok runtime =>
          { s with rebuilds := s.rebuilds.eraseIdx i, runtimes := s.runtimes ++ [(runtime.gateway, readAt)] }
      else s
  | .headers i id accepted headers =>
    match s.runtimes[i]? with
    | none => s
    | some (gateway, readAt) =>
      let gateway := (gateway.observeCodexQuotaHeaders id accepted (mergeCodexQuotaHeaders · headers)
        headers.observedAtMs).1
      { s with
        runtimes := s.runtimes.set i (gateway, readAt)
        history := if accepted then s.history.saw id headers else s.history }
  | .finish i id observation nowMs delivered =>
    match s.runtimes[i]? with
    | none => s
    | some (gateway, readAt) =>
      if (gateway.chatgptAccounts[id]?).any (·.active) then
        let taken := gateway.takePassiveQuotaSnapshot id nowMs
        let usage : AccountUsage := ⟨id, { observation, quotaSnapshot := taken.2, observedAtMs := nowMs }, readAt⟩
        -- An event that finds the queue full is lost, and its snapshot with it.
        { s with
          runtimes := s.runtimes.set i (taken.1, readAt)
          queue := if delivered then s.queue ++ [usage] else s.queue }
      else s
  | .persist count access =>
    { s with
      accounts := (s.queue.take count).foldl (persistEvent access) s.accounts
      queue := s.queue.drop count }

/-! ## The condition -/

/-- The quota was read after the last successful refresh of the account, or by it. -/
def Fresh (id : String) (readAt : Nat) : Prop := s.history.last id ≤ readAt

/-- What is stored over the quota of an account was read after its last successful refresh: the record of a failed
refresh or of a discovery of models, and each snapshot of a batch that is not older than the stored quota. -/
def StoresFresh : QuotaStep → Prop
  | .quotaReply i reply =>
    match s.task i, reply.result with
    | (.quota original _, readAt), some (.failed _) => s.Fresh original.id.text readAt
    | _, _ => True
  | .modelsReply i _ =>
    match s.task i with
    | (.models record _, readAt) => s.Fresh record.id.text readAt
    | _ => True
  | .persist count _ =>
    ∀ queued ∈ s.queue.take count, ∀ snapshot record, queued.usage.quotaSnapshot = some snapshot →
      s.accounts.get? queued.accountId = some record →
      record.quota.updatedAtMs.getD 0 ≤ snapshot.updatedAtMs.getD 0 → s.Fresh queued.accountId queued.readAt
  | _ => True

/-- The stored quota of every account tells what its last successful refresh reported, and its windows are those of
the refresh merged with headers observed since. -/
def RefreshStands : Prop :=
  ∀ id record, s.accounts.get? id = some record →
    record.quota.reported = (s.history.quota id).reported ∧
      ∃ applied : List CodexHeaders, applied.Sublist (s.history.observed id) ∧
        ∀ kind, record.quota.window kind = (applied.foldl QuotaSnapshot.observe (s.history.quota id)).window kind

/-! ## Where quotas are held -/

/-- Some part of the system holds the quota of an account, and when it was read. The stored one is always current. -/
inductive Holds : String → Nat → QuotaSnapshot → Prop
  | stored {id : String} {record : ServerAccountRecord} : s.accounts.get? id = some record →
      Holds id s.history.refreshes record.quota
  | task {task : RefreshTask} {readAt : Nat} {record : ServerAccountRecord} : (task, readAt) ∈ s.tasks →
      task.record? = some record → Holds record.id.text readAt record.quota
  | rebuild {records : List ServerAccountRecord} {readAt : Nat} {record : ServerAccountRecord} :
      (records, readAt) ∈ s.rebuilds → record ∈ records → Holds record.id.text readAt record.quota
  | runtime {gateway : GatewayRuntime} {readAt : Nat} {id : String} {state : PassiveQuotaState} :
      (gateway, readAt) ∈ s.runtimes → gateway.passiveQuotas[id]? = some state → Holds id readAt state.snapshot
  | queued {queued : AccountUsage} {snapshot : QuotaSnapshot} : queued ∈ s.queue →
      queued.usage.quotaSnapshot = some snapshot → Holds queued.accountId queued.readAt snapshot

/-- A held quota that is fresh stems from the last refresh of its account. -/
def Stems (id : String) (readAt : Nat) (quota : QuotaSnapshot) : Prop :=
  readAt ≤ s.history.refreshes ∧
    (s.Fresh id readAt → Derived (s.history.quota id) (s.history.observed id) quota)

structure Sourced : Prop where
  last : ∀ id, s.history.last id ≤ s.history.refreshes
  held : ∀ id readAt quota, s.Holds id readAt quota → s.Stems id readAt quota

variable {parts s}

theorem Sourced.refreshStands (h : s.Sourced) : s.RefreshStands := by
  intro id record hget
  have hderived := (h.held id _ _ (.stored hget)).2 (h.last id)
  exact ⟨hderived.reported, hderived.windows⟩

theorem sourced_start (accounts : AccountTable) : (start accounts).Sourced where
  last _ := Nat.le_refl _
  held id readAt quota hholds := by
    cases hholds with
    | @stored id record hget =>
      refine ⟨Nat.le_refl _, fun _ => ?_⟩
      have hquota : (start accounts).history.quota id = record.quota := by
        unfold start at hget ⊢
        dsimp only at hget ⊢
        rw [hget]
        rfl
      rw [hquota]
      exact .refl _ _
    | task hmem => cases hmem
    | rebuild hmem => cases hmem
    | runtime hmem => cases hmem
    | queued hmem => cases hmem

/-! ## Steps that hold no new quota -/

/-- With the same history it is enough that what is held was held before, or stems from the refresh. -/
theorem Sourced.of_holds (h : s.Sourced) {s' : QuotaSystem} (hhistory : s'.history = s.history)
    (hholds : ∀ id readAt quota, s'.Holds id readAt quota → s.Holds id readAt quota ∨ s.Stems id readAt quota) :
    s'.Sourced where
  last id := by
    rw [hhistory]
    exact h.last id
  held id readAt quota hheld := by
    unfold Stems Fresh
    rw [hhistory]
    exact (hholds id readAt quota hheld).elim (h.held id readAt quota) fun hstems => hstems

variable {task : RefreshTask} {readAt : Nat}

theorem mem_tasks {i : Nat} (h : s.task i = (task, readAt)) (hdone : task ≠ .done) :
    (task, readAt) ∈ s.tasks := by
  unfold QuotaSystem.task at h
  rw [List.getD_eq_getElem?_getD] at h
  cases hget : s.tasks[i]? with
  | none =>
    rw [hget, Option.getD_none] at h
    exact absurd (Prod.mk.inj h).1.symm hdone
  | some entry =>
    rw [hget, Option.getD_some] at h
    exact h ▸ List.mem_of_getElem? hget

/-- A task that goes on holds what it held, or a quota that stems from the refresh. -/
theorem Sourced.setTask (h : s.Sourced) (i : Nat)
    (htask : ∀ record, task.record? = some record → s.Stems record.id.text readAt record.quota) :
    ({ s with tasks := s.tasks.set i (task, readAt) } : QuotaSystem).Sourced := by
  refine h.of_holds rfl fun id readAt' quota hheld => ?_
  cases hheld with
  | stored hget => exact .inl (.stored hget)
  | task hmem hrecord =>
    rcases List.mem_or_eq_of_mem_set hmem with hold | hnew
    · exact .inl (.task hold hrecord)
    · obtain ⟨rfl, rfl⟩ := Prod.mk.inj hnew
      exact .inr (htask _ hrecord)
  | rebuild hmem hrecord => exact .inl (.rebuild hmem hrecord)
  | runtime hmem hstate => exact .inl (.runtime hmem hstate)
  | queued hmem hsnapshot => exact .inl (.queued hmem hsnapshot)

variable {record : ServerAccountRecord}

/-- A record that is stored must hold a quota that stems from the last refresh. -/
theorem Sourced.upsert (h : s.Sourced)
    (hderived : Derived (s.history.quota record.id.text) (s.history.observed record.id.text) record.quota) :
    ({ s with accounts := s.accounts.upsert record } : QuotaSystem).Sourced := by
  refine h.of_holds rfl fun id readAt quota hheld => ?_
  cases hheld with
  | @stored id stored hget =>
    dsimp only at hget
    rw [RecordTable.get?_upsert] at hget
    split at hget
    case isTrue hid =>
      obtain rfl := Option.some.inj hget
      exact .inr ⟨Nat.le_refl _, fun _ => hid ▸ hderived⟩
    case isFalse => exact .inl (.stored hget)
  | task hmem hrecord => exact .inl (.task hmem hrecord)
  | rebuild hmem hrecord => exact .inl (.rebuild hmem hrecord)
  | runtime hmem hstate => exact .inl (.runtime hmem hstate)
  | queued hmem hsnapshot => exact .inl (.queued hmem hsnapshot)

variable {id : String}

theorem Stems.congr {quota quota' : QuotaSnapshot} (h : s.Stems id readAt quota)
    (heq : quota'.withoutError = quota.withoutError) : s.Stems id readAt quota' :=
  ⟨h.1, fun hfresh => (h.2 hfresh).congr heq⟩

theorem Sourced.refresh (h : s.Sourced) (id : String) (refreshModels : Bool) :
    (s.step parts (.refresh id refreshModels)).Sourced := by
  cases hget : s.accounts.get? id with
  | none =>
    simp only [step, hget]
    exact h
  | some record =>
    simp only [step, hget]
    refine h.of_holds rfl fun id' readAt quota hheld => ?_
    cases hheld with
    | stored hget => exact .inl (.stored hget)
    | task hmem hrecord =>
      rcases List.mem_append.mp hmem with hold | hnew
      · exact .inl (.task hold hrecord)
      · obtain ⟨rfl, rfl⟩ := Prod.mk.inj (List.mem_singleton.mp hnew)
        obtain rfl := Option.some.inj hrecord
        exact .inl (.stored (RecordTable.get?_id hget ▸ hget))
    | rebuild hmem hrecord => exact .inl (.rebuild hmem hrecord)
    | runtime hmem hstate => exact .inl (.runtime hmem hstate)
    | queued hmem hsnapshot => exact .inl (.queued hmem hsnapshot)

/-! ## A successful refresh -/

/-- With a successful refresh everything that was read of the account before is no longer fresh. -/
theorem Sourced.refreshed (h : s.Sourced) (i : Nat)
    (htask : task.record? = some record) :
    ({ s with
        accounts := s.accounts.upsert record
        tasks := s.tasks.set i (task, s.history.refreshes + 1)
        history := s.history.refreshed record.id.text record.quota } : QuotaSystem).Sourced := by
  -- What was held before and is of another account, or is no longer fresh.
  have hbefore : ∀ id readAt quota, s.Holds id readAt quota →
      ({ s with
        accounts := s.accounts.upsert record
        tasks := s.tasks.set i (task, s.history.refreshes + 1)
        history := s.history.refreshed record.id.text record.quota } : QuotaSystem).Stems id readAt quota := by
    intro id readAt quota hheld
    obtain ⟨hle, hderived⟩ := h.held id readAt quota hheld
    refine ⟨Nat.le_succ_of_le hle, fun hfresh => ?_⟩
    unfold Fresh History.refreshed at hfresh
    unfold History.refreshed
    dsimp only at hfresh ⊢
    by_cases hid : id = record.id.text
    · rw [hid, Function.update_self] at hfresh
      exact absurd hfresh (Nat.not_le.mpr (Nat.lt_succ_of_le hle))
    · rw [Function.update_of_ne hid] at hfresh ⊢
      rw [Function.update_of_ne hid]
      exact hderived hfresh
  have hown : Derived (Function.update s.history.quota record.id.text record.quota record.id.text)
      (Function.update s.history.observed record.id.text [] record.id.text) record.quota := by
    rw [Function.update_self]
    exact .refl _ _
  constructor
  · intro id
    unfold History.refreshed
    dsimp only
    by_cases hid : id = record.id.text
    · rw [hid, Function.update_self]
    · rw [Function.update_of_ne hid]
      exact Nat.le_succ_of_le (h.last id)
  · intro id readAt quota hheld
    cases hheld with
    | @stored id stored hget =>
      refine ⟨Nat.le_refl _, fun _ => ?_⟩
      dsimp only at hget
      rw [RecordTable.get?_upsert] at hget
      split at hget
      case isTrue hid =>
        obtain rfl := Option.some.inj hget
        exact hid ▸ hown
      case isFalse hid =>
        have hderived := (h.held id _ _ (.stored hget)).2 (h.last id)
        unfold History.refreshed
        dsimp only
        rw [Function.update_of_ne (Ne.symm hid), Function.update_of_ne (Ne.symm hid)]
        exact hderived
    | task hmem hrecord =>
      rcases List.mem_or_eq_of_mem_set hmem with hold | hnew
      · exact hbefore _ _ _ (.task hold hrecord)
      · obtain ⟨rfl, rfl⟩ := Prod.mk.inj hnew
        obtain rfl := Option.some.inj (hrecord.symm.trans htask)
        exact ⟨Nat.le_refl _, fun _ => hown⟩
    | rebuild hmem hrecord => exact hbefore _ _ _ (.rebuild hmem hrecord)
    | runtime hmem hstate => exact hbefore _ _ _ (.runtime hmem hstate)
    | queued hmem hsnapshot => exact hbefore _ _ _ (.queued hmem hsnapshot)

theorem Sourced.quotaReply (h : s.Sourced) {i : Nat} {reply : RefreshReply} (hfresh : s.StoresFresh (.quotaReply i reply)) :
    (s.step parts (.quotaReply i reply)).Sourced := by
  rcases htask : s.task i with ⟨task, readAt⟩
  cases task with
  | quota original refreshModels =>
    have hstems := h.held _ _ _ (.task (mem_tasks htask nofun) rfl)
    cases hresult : reply.result with
    | none =>
      simp only [step, htask, hresult]
      refine h.setTask i fun record hrecord => ?_
      cases refreshModels with
      | true => exact Option.some.inj hrecord ▸ hstems
      | false => cases hrecord
    | some result =>
      have hnext : (if refreshModels then RefreshTask.models (reply.apply original result) true
          else .refreshed (reply.apply original result)).record? = some (reply.apply original result) := by
        cases refreshModels <;> rfl
      cases result with
      | updated quota =>
        simp only [step, htask, hresult]
        exact h.refreshed i hnext
      | failed error =>
        simp only [StoresFresh, htask, hresult] at hfresh
        simp only [step, htask, hresult]
        have hquota : (reply.apply original (.failed error)).quota.withoutError = original.quota.withoutError := rfl
        have hstored : ({ s with accounts := s.accounts.upsert (reply.apply original (.failed error)) } :
            QuotaSystem).Sourced := h.upsert ((hstems.2 hfresh).congr hquota)
        refine hstored.setTask i fun record hrecord => ?_
        rw [hnext] at hrecord
        exact Option.some.inj hrecord ▸ hstems.congr hquota
  | _ =>
    simp only [step, htask]
    exact h

theorem withModels_keeps (record : ServerAccountRecord) (reply : ModelsReply) :
    (record.withModels reply).quota = record.quota ∧ (record.withModels reply).id = record.id := by
  unfold ServerAccountRecord.withModels ServerAccountRecord.applyDiscoveredModels
  cases reply.models with
  | ok models => exact ⟨rfl, rfl⟩
  | error failure => exact ⟨rfl, rfl⟩

theorem Sourced.modelsReply (h : s.Sourced) {i : Nat} {reply : ModelsReply}
    (hfresh : s.StoresFresh (.modelsReply i reply)) : (s.step parts (.modelsReply i reply)).Sourced := by
  rcases htask : s.task i with ⟨task, readAt⟩
  cases task with
  | models record hasQuota =>
    simp only [StoresFresh, htask] at hfresh
    simp only [step, htask]
    have hstems := h.held _ _ _ (.task (mem_tasks htask nofun) rfl)
    obtain ⟨hquota, hid⟩ := withModels_keeps record reply
    have hstored : ({ s with accounts := s.accounts.upsert (record.withModels reply) } : QuotaSystem).Sourced :=
      h.upsert (by rw [hquota, hid]; exact hstems.2 hfresh)
    refine hstored.setTask i fun record' hrecord => ?_
    cases hasQuota with
    | true =>
      obtain rfl := Option.some.inj hrecord
      rw [hquota, hid]
      exact hstems
    | false => cases hrecord
  | _ =>
    simp only [step, htask]
    exact h

theorem Sourced.resetApplied (h : s.Sourced) (i : Nat) : (s.step parts (.resetApplied i)).Sourced := by
  rcases htask : s.task i with ⟨task, readAt⟩
  cases task with
  | refreshed record =>
    simp only [step, htask]
    refine h.setTask i fun record' hrecord => ?_
    exact Option.some.inj hrecord ▸ h.held _ _ _ (.task (mem_tasks htask nofun) rfl)
  | _ =>
    simp only [step, htask]
    exact h

/-! ## Runtimes -/

theorem Sourced.readAccounts (h : s.Sourced) : (s.step parts .readAccounts).Sourced := by
  refine h.of_holds rfl fun id readAt quota hheld => ?_
  cases hheld with
  | stored hget => exact .inl (.stored hget)
  | task hmem hrecord => exact .inl (.task hmem hrecord)
  | rebuild hmem hrecord =>
    rcases List.mem_append.mp hmem with hold | hnew
    · exact .inl (.rebuild hold hrecord)
    · obtain ⟨rfl, rfl⟩ := Prod.mk.inj (List.mem_singleton.mp hnew)
      exact .inl (.stored (RecordTable.mem_all.mp hrecord))
  | runtime hmem hstate => exact .inl (.runtime hmem hstate)
  | queued hmem hsnapshot => exact .inl (.queued hmem hsnapshot)

theorem Sourced.install (h : s.Sourced) (i : Nat) (sources : List RuntimeSource) (accounts : List RuntimeChatGptAccount)
    (keys : List RuntimeKey) (settings : RuntimeSettings) :
    (s.step parts (.install i sources accounts keys settings)).Sourced := by
  cases hrebuild : s.rebuilds[i]? with
  | none =>
    simp only [step, hrebuild]
    exact h
  | some entry =>
    obtain ⟨records, readAt⟩ := entry
    simp only [step, hrebuild]
    have hmem := List.mem_of_getElem? hrebuild
    split
    · next hrecords =>
      simp only [List.all_eq_true, decide_eq_true_eq] at hrecords
      split
      · refine h.of_holds rfl fun id readAt quota hheld => ?_
        cases hheld with
        | stored hget => exact .inl (.stored hget)
        | task hmem hrecord => exact .inl (.task hmem hrecord)
        | rebuild hmem hrecord => exact .inl (.rebuild (List.mem_of_mem_eraseIdx hmem) hrecord)
        | runtime hmem hstate => exact .inl (.runtime hmem hstate)
        | queued hmem hsnapshot => exact .inl (.queued hmem hsnapshot)
      · next runtime hruntime =>
        refine h.of_holds rfl fun id readAt quota hheld => ?_
        cases hheld with
        | stored hget => exact .inl (.stored hget)
        | task hmem hrecord => exact .inl (.task hmem hrecord)
        | rebuild hmem hrecord => exact .inl (.rebuild (List.mem_of_mem_eraseIdx hmem) hrecord)
        | runtime hruntimes hstate =>
          rcases List.mem_append.mp hruntimes with hold | hnew
          · exact .inl (.runtime hold hstate)
          · obtain ⟨rfl, rfl⟩ := Prod.mk.inj (List.mem_singleton.mp hnew)
            obtain ⟨account, haccount, rfl, hsnapshot⟩ := passiveQuotas_fromMixedPool hruntime hstate
            rw [hsnapshot]
            exact .inl (.rebuild hmem (hrecords account haccount))
        | queued hmem hsnapshot => exact .inl (.queued hmem hsnapshot)
    · exact h

/-- A quota stems from the refresh still when more headers have been seen. -/
theorem Stems.saw {quota : QuotaSnapshot} (h : s.Stems id readAt quota) (id' : String)
    (headers : CodexHeaders) :
    ({ s with history := s.history.saw id' headers } : QuotaSystem).Stems id readAt quota := by
  refine ⟨h.1, fun hfresh => ?_⟩
  unfold History.saw
  dsimp only
  by_cases hid : id = id'
  · subst hid
    rw [Function.update_self]
    exact (h.2 hfresh).later headers
  · rw [Function.update_of_ne hid]
    exact h.2 hfresh

theorem Sourced.saw (h : s.Sourced) (id : String) (headers : CodexHeaders) :
    ({ s with history := s.history.saw id headers } : QuotaSystem).Sourced where
  last := h.last
  held id' readAt quota hheld := by
    have hbefore : s.Holds id' readAt quota := by
      cases hheld with
      | stored hget => exact .stored hget
      | task hmem hrecord => exact .task hmem hrecord
      | rebuild hmem hrecord => exact .rebuild hmem hrecord
      | runtime hmem hstate => exact .runtime hmem hstate
      | queued hmem hsnapshot => exact .queued hmem hsnapshot
    exact (h.held _ _ _ hbefore).saw id headers

/-- A runtime that is replaced by one with quotas that were held, or that stem from the refresh. -/
theorem Sourced.setRuntime (h : s.Sourced) (i : Nat) {gateway : GatewayRuntime}
    (hstates : ∀ (id : String) (state : PassiveQuotaState), gateway.passiveQuotas[id]? = some state →
      s.Stems id readAt state.snapshot) :
    ({ s with runtimes := s.runtimes.set i (gateway, readAt) } : QuotaSystem).Sourced := by
  refine h.of_holds rfl fun id readAt' quota hheld => ?_
  cases hheld with
  | stored hget => exact .inl (.stored hget)
  | task hmem hrecord => exact .inl (.task hmem hrecord)
  | rebuild hmem hrecord => exact .inl (.rebuild hmem hrecord)
  | runtime hmem hstate =>
    rcases List.mem_or_eq_of_mem_set hmem with hold | hnew
    · exact .inl (.runtime hold hstate)
    · obtain ⟨rfl, rfl⟩ := Prod.mk.inj hnew
      exact .inr (hstates _ _ hstate)
  | queued hmem hsnapshot => exact .inl (.queued hmem hsnapshot)

theorem Sourced.headers (h : s.Sourced) (i : Nat) (id : String) (accepted : Bool) (headers : CodexHeaders) :
    (s.step parts (.headers i id accepted headers)).Sourced := by
  cases hruntime : s.runtimes[i]? with
  | none =>
    simp only [step, hruntime]
    exact h
  | some entry =>
    obtain ⟨gateway, readAt⟩ := entry
    simp only [step, hruntime]
    have hheld : ∀ (id : String) (state : PassiveQuotaState), gateway.passiveQuotas[id]? = some state →
        s.Stems id readAt state.snapshot := fun id state hstate =>
      h.held _ _ _ (.runtime (List.mem_of_getElem? hruntime) hstate)
    cases accepted with
    | false =>
      refine h.setRuntime i fun id' state hstate => ?_
      rcases passiveQuotas_observe hstate with hbefore | ⟨haccepted, -⟩
      · exact hheld id' state hbefore
      · cases haccepted
    | true =>
      refine (h.saw id headers).setRuntime i fun id' state hstate => ?_
      rcases passiveQuotas_observe hstate with hbefore | ⟨-, rfl, before, hbefore, hsnapshot⟩
      · exact (hheld id' state hbefore).saw id headers
      · -- The headers are the last ones seen, so the merged quota takes them into its derivation.
        refine ⟨(hheld id' before hbefore).1, fun hfresh => ?_⟩
        unfold History.saw
        dsimp only
        rw [Function.update_self, hsnapshot]
        exact ((hheld id' before hbefore).2 hfresh).observe headers

theorem Sourced.finish (h : s.Sourced) (i : Nat) (id : String) (observation : AccountUsageObservation) (nowMs : Nat)
    (delivered : Bool) : (s.step parts (.finish i id observation nowMs delivered)).Sourced := by
  cases hruntime : s.runtimes[i]? with
  | none =>
    simp only [step, hruntime]
    exact h
  | some entry =>
    obtain ⟨gateway, readAt⟩ := entry
    simp only [step, hruntime]
    have hheld : ∀ (id : String) (state : PassiveQuotaState), gateway.passiveQuotas[id]? = some state →
        s.Stems id readAt state.snapshot := fun id state hstate =>
      h.held _ _ _ (.runtime (List.mem_of_getElem? hruntime) hstate)
    obtain ⟨hstates, htaken⟩ := @passiveQuotas_take gateway id nowMs
    split
    · have hset := h.setRuntime i fun id' state hstate => by
        obtain ⟨before, hbefore, hsnapshot⟩ := hstates id' state hstate
        exact hsnapshot ▸ hheld id' before hbefore
      refine hset.of_holds rfl fun id' readAt' quota hheld' => ?_
      cases hheld' with
      | stored hget => exact .inl (.stored hget)
      | task hmem hrecord => exact .inl (.task hmem hrecord)
      | rebuild hmem hrecord => exact .inl (.rebuild hmem hrecord)
      | runtime hmem hstate => exact .inl (.runtime hmem hstate)
      | queued hmem hsnapshot =>
        cases delivered with
        | false => exact .inl (.queued hmem hsnapshot)
        | true =>
          rcases List.mem_append.mp hmem with hold | hnew
          · exact .inl (.queued hold hsnapshot)
          · obtain rfl := List.mem_singleton.mp hnew
            obtain ⟨before, hbefore, rfl⟩ := htaken _ hsnapshot
            exact .inr (hheld id before hbefore)
    · exact h

/-! ## The usage writer -/

/-- An event leaves the stored quota, or takes over a snapshot that is not older. -/
theorem quota_persistUsage (accessState : AccountAccessState) (successfulAuthState : Option AccountAuthState)
    (record : ServerAccountRecord) (queued : QueuedUsage) :
    (persistUsage accessState successfulAuthState record queued).quota = record.quota ∨
      ∃ snapshot, queued.quotaSnapshot = some snapshot ∧
        record.quota.updatedAtMs.getD 0 ≤ snapshot.updatedAtMs.getD 0 ∧
        (persistUsage accessState successfulAuthState record queued).quota = snapshot := by
  have hquota : (persistUsage accessState successfulAuthState record queued).quota =
      (queued.quotaSnapshot.filter fun snapshot =>
        decide (record.quota.updatedAtMs.getD 0 ≤ snapshot.updatedAtMs.getD 0)).getD record.quota := by
    unfold persistUsage
    dsimp only
    generalize reduceAccountUsage _ _ _ _ _ = update
    cases update.resetRuntimeFailures <;> rfl
  rw [hquota]
  cases hfilter : queued.quotaSnapshot.filter fun snapshot =>
      decide (record.quota.updatedAtMs.getD 0 ≤ snapshot.updatedAtMs.getD 0) with
  | none => exact .inl rfl
  | some snapshot =>
    obtain ⟨hsnapshot, hnewer⟩ := Option.filter_eq_some_iff.mp hfilter
    exact .inr ⟨snapshot, hsnapshot, of_decide_eq_true hnewer, rfl⟩

variable {access : String → AccountAccessState × Option AccountAuthState}

theorem get?_persistEvent {accounts : AccountTable}
    {queued : AccountUsage}
    (h : (persistEvent access accounts queued).get? id = some record) :
    ∃ before, accounts.get? id = some before ∧ (record.quota = before.quota ∨ queued.accountId = id ∧
      ∃ snapshot, queued.usage.quotaSnapshot = some snapshot ∧
        before.quota.updatedAtMs.getD 0 ≤ snapshot.updatedAtMs.getD 0 ∧ record.quota = snapshot) := by
  unfold persistEvent at h
  rw [RecordTable.get?_update] at h
  split at h
  case isTrue hid =>
    subst hid
    obtain ⟨before, hbefore, rfl⟩ := Option.map_eq_some_iff.mp h
    exact ⟨before, hbefore, (quota_persistUsage _ _ before queued.usage).imp_right fun htaken => ⟨rfl, htaken⟩⟩
  case isFalse => exact ⟨record, h, .inl rfl⟩

/-- What holds of the stored quotas, and of each snapshot of the batch that is not older than the stored quota, holds of
the quotas after the batch. The time of a stored quota only grows, so older snapshots stay older. -/
theorem quotas_after_batch {P : String → QuotaSnapshot → Prop}
    (access : String → AccountAccessState × Option AccountAuthState) (batch : List AccountUsage) {accounts : AccountTable}
    (hstored : ∀ id record, accounts.get? id = some record → P id record.quota)
    (hbatch : ∀ queued ∈ batch, ∀ snapshot record, queued.usage.quotaSnapshot = some snapshot →
      accounts.get? queued.accountId = some record →
      record.quota.updatedAtMs.getD 0 ≤ snapshot.updatedAtMs.getD 0 → P queued.accountId snapshot) :
    ∀ id record, (batch.foldl (persistEvent access) accounts).get? id = some record → P id record.quota := by
  induction batch generalizing accounts with
  | nil => exact hstored
  | cons queued batch ih =>
    refine ih (fun id record hget => ?_) fun later hlater snapshot record hsnapshot hget hnewer => ?_
    · obtain ⟨before, hbefore, hquota | ⟨rfl, snapshot, hsnapshot, hnewer, rfl⟩⟩ := get?_persistEvent hget
      · rw [hquota]
        exact hstored id before hbefore
      · exact hbatch queued List.mem_cons_self _ before hsnapshot hbefore hnewer
    · obtain ⟨before, hbefore, hquota | ⟨-, taken, -, htaken, hquota⟩⟩ := get?_persistEvent hget
      · rw [hquota] at hnewer
        exact hbatch later (List.mem_cons_of_mem _ hlater) snapshot before hsnapshot hbefore hnewer
      · rw [hquota] at hnewer
        exact hbatch later (List.mem_cons_of_mem _ hlater) snapshot before hsnapshot hbefore (htaken.trans hnewer)

theorem Sourced.persist (h : s.Sourced) {count : Nat}
    (hfresh : s.StoresFresh (.persist count access)) : (s.step parts (.persist count access)).Sourced := by
  have hstored := quotas_after_batch access (s.queue.take count)
    (fun id record hget => (h.held id _ _ (.stored hget)).2 (h.last id))
    fun queued hmem snapshot record hsnapshot hget hnewer =>
      (h.held _ _ _ (.queued (List.mem_of_mem_take hmem) hsnapshot)).2
        (hfresh queued hmem snapshot record hsnapshot hget hnewer)
  refine h.of_holds rfl fun id readAt quota hheld => ?_
  cases hheld with
  | stored hget => exact .inr ⟨Nat.le_refl _, fun _ => hstored _ _ hget⟩
  | task hmem hrecord => exact .inl (.task hmem hrecord)
  | rebuild hmem hrecord => exact .inl (.rebuild hmem hrecord)
  | runtime hmem hstate => exact .inl (.runtime hmem hstate)
  | queued hmem hsnapshot => exact .inl (.queued (List.mem_of_mem_drop hmem) hsnapshot)

/-! ## Runs -/

theorem Sourced.step (h : s.Sourced) {op : QuotaStep} (hfresh : s.StoresFresh op) : (s.step parts op).Sourced := by
  cases op with
  | refresh id refreshModels => exact h.refresh id refreshModels
  | quotaReply i reply => exact h.quotaReply hfresh
  | modelsReply i reply => exact h.modelsReply hfresh
  | resetApplied i => exact h.resetApplied i
  | readAccounts => exact h.readAccounts
  | install i sources accounts keys settings => exact h.install i sources accounts keys settings
  | headers i id accepted headers => exact h.headers i id accepted headers
  | finish i id observation nowMs delivered => exact h.finish i id observation nowMs delivered
  | persist count access => exact h.persist hfresh

/-- In every interleaving of refreshes, rebuilds, requests and batches that stores only what was read after the last
successful refresh of an account, every stored quota tells what that refresh reported, and its windows have been changed
by headers observed since only. -/
theorem refreshes_stand (parts : BuildParts) (accounts : AccountTable) (ops : List QuotaStep)
    (hfresh : StepsMeet (QuotaSystem.step parts) StoresFresh (start accounts) ops) :
    ∀ before after, ops = before ++ after → (run (QuotaSystem.step parts) (start accounts) before).RefreshStands := by
  rintro before after rfl
  exact (run_invariant (fun _ _ h hfresh => h.step hfresh) (sourced_start accounts)
    (StepsMeet.append.mp hfresh).1).refreshStands

/-! ## A request that outlives a refresh -/

def sampleWindow (available observedAtMs : Nat) : QuotaWindow where
  kind := .primary
  availableBasisPoints := some available
  resetAtMs := some 1000000
  observedAtMs

/-- A refresh that reports reset credits and a window. -/
def reportOf (resetCredits available nowMs : Nat) : QuotaSnapshot where
  primary := some (sampleWindow available nowMs)
  resetCreditsAvailable := some resetCredits
  updatedAtMs := some nowMs

def refreshSteps (task : Nat) (quota : QuotaSnapshot) : List QuotaStep :=
  [.refresh "account_1" false, .quotaReply task { result := some (.updated quota) }]

/-- The runtime is built from the record that the report was stored in. -/
def rebuildSteps (quota : QuotaSnapshot) : List QuotaStep :=
  let record := RefreshReply.apply { result := none } sampleMember (.updated quota)
  [.readAccounts, .install 0 [] [runtimeAccount record sampleCredential none none 0]
    [runtimeKey [] [] ["account_1"] { id := "key_system", system := true, secretRef := "key:key_system" } "secret"] {}]

/-- A response whose headers report less of the window, and its usage event, which the writer stores. -/
def responseSteps (runtime available observedAtMs : Nat) : List QuotaStep :=
  [.headers runtime "account_1" true { primary := some (sampleWindow available observedAtMs), observedAtMs },
    .finish runtime "account_1" { success := true, httpStatus := 200 } observedAtMs true,
    .persist 1 fun _ => (.refreshable, none)]

def sampleAccounts : AccountTable := RecordTable.empty.upsert sampleMember

/-- The account is refreshed and a runtime is built, and a response on it lowers the window. -/
def standingRun : List QuotaStep :=
  refreshSteps 0 (reportOf 3 8000 1000) ++ rebuildSteps (reportOf 3 8000 1000) ++ responseSteps 0 4000 9000

/-- The account is refreshed once more, and its runtime replaced, before the response. -/
def outlivedRun : List QuotaStep :=
  refreshSteps 0 (reportOf 3 8000 1000) ++ rebuildSteps (reportOf 3 8000 1000) ++ refreshSteps 1 (reportOf 2 9000 2000) ++
    rebuildSteps (reportOf 2 9000 2000) ++ responseSteps 0 4000 9000

theorem storesFresh_of_forall {s : QuotaSystem} {count : Nat}
    (h : ∀ queued ∈ s.queue.take count, s.Fresh queued.accountId queued.readAt) : s.StoresFresh (.persist count access) :=
  fun queued hmem _ _ _ _ _ => h queued hmem

theorem storesFresh_updated {s : QuotaSystem} {task : Nat} {quota : QuotaSnapshot} :
    s.StoresFresh (.quotaReply task { result := some (.updated quota) }) := by
  simp only [StoresFresh]
  split
  · next hfailed => cases hfailed
  · trivial

instance (s : QuotaSystem) (id : String) (readAt : Nat) : Decidable (s.Fresh id readAt) :=
  inferInstanceAs (Decidable (_ ≤ _))

theorem refreshes_stand_sample :
    let s := run (QuotaSystem.step sampleParts) (start sampleAccounts) standingRun
    (s.accounts.get? "account_1").map (fun record => (record.quota.resetCreditsAvailable, record.quota.primary)) =
        some (some 3, some (sampleWindow 4000 9000)) ∧
      s.RefreshStands :=
  ⟨by decide +kernel, refreshes_stand sampleParts sampleAccounts standingRun
    ⟨trivial, storesFresh_updated, trivial, trivial, trivial, trivial, storesFresh_of_forall (by decide +kernel), trivial⟩
    standingRun [] (List.append_nil _).symm⟩

/-- The response brings the reset credits of the first report back. -/
theorem refresh_undone :
    let s := run (QuotaSystem.step sampleParts) (start sampleAccounts) outlivedRun
    s.runtimes.length = 2 ∧ (s.accounts.get? "account_1").map (·.quota.resetCreditsAvailable) = some (some 3) ∧
      (s.history.quota "account_1").resetCreditsAvailable = some 2 ∧ ¬s.RefreshStands := by
  intro s
  have hstored : (s.accounts.get? "account_1").map (·.quota.resetCreditsAvailable) = some (some 3) := by decide +kernel
  have hlast : (s.history.quota "account_1").resetCreditsAvailable = some 2 := by decide +kernel
  refine ⟨by decide +kernel, hstored, hlast, fun hstands => ?_⟩
  obtain ⟨record, hget, hcredits⟩ := Option.map_eq_some_iff.mp hstored
  have hreported := congrArg Prod.fst (hstands "account_1" record hget).1
  rw [show record.quota.reported.1 = some 3 from hcredits, show (s.history.quota "account_1").reported.1 = some 2 from hlast]
    at hreported
  cases hreported

end QuotaSystem

end Zenith.Server
