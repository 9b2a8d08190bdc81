import Zenith.Lib.Runs
import Zenith.Server.AccountRecords

/-!
# Refreshes and edits of accounts

Everything that writes account records while a refresh waits for the network: the operator's edits, the usage
writer, the team breaker, deletions and imports. The usage writer, the breaker and the token authority change the
stored record in one transaction (`Store::update_account`), pool membership and presets their fields of it. A
refresh and an edit read the whole record, and later store it whole.

`edits_kept_iff`: no setting is lost and no account comes back exactly if no whole record is stored that has become
stale in the meantime (`NotStale`). Nothing in the source sees to that.

Rollbacks after a failed rebuild are left out, and so are the values that the network, the token authority and the
vault answer with: the steps carry them.
-/

namespace Zenith.Server

open Std Zenith.Accounts Zenith.Quota Zenith.Records Zenith.Runs Zenith.Tables Zenith.Text

/-! ## Refreshes -/

/-- What `reduce_account_quota` makes of the reply of the quota endpoint. -/
structure AccountQuotaUpdate where
  quota : QuotaSnapshot
  subscription : Subscription
  health : AccountHealthState
  lastErrorCode : Option String
deriving DecidableEq, Repr

/-- How the request of a `refresh_one` ended; `update` is `none` where its reduction, or its write, failed. -/
structure QuotaReply where
  update : Option AccountQuotaUpdate
  authState : Option AccountAuthState := none
  accessOnlyRejected : Bool := false
deriving DecidableEq, Repr

/-- How a discovery of models ended: the models, or an error code and whether to try again. -/
structure ModelsReply where
  models : Except (String × Bool) (List String)
  reauthState : Option AccountAuthState := none

namespace ServerAccountRecord

variable (record : ServerAccountRecord)

def withUsageState (state : AccountUsageState) : ServerAccountRecord :=
  { record with
    authState := state.authState
    health := state.health
    lastErrorCode := state.lastErrorCode
    lastUsedAtMs := state.lastUsedAtMs }

def withQuota (update : AccountQuotaUpdate) (reply : QuotaReply) : ServerAccountRecord :=
  let authState := reply.authState.getD record.authState
  { record with
    quota := update.quota
    subscription := update.subscription
    health := update.health
    lastErrorCode := update.lastErrorCode
    authState :=
      if reply.accessOnlyRejected && authState = .degradedAccessOnly then .requiresReauth .accessTokenExpired
      else authState }

/-- The reducers of a discovery leave the time of the last use alone, and so does this. -/
def withDiscovery (state : AccountUsageState) : ServerAccountRecord :=
  { record with authState := state.authState, health := state.health, lastErrorCode := state.lastErrorCode }

/-- `apply_discovered_models`. The models are normalized. -/
def applyDiscoveredModels : Except (String × Bool) (List String) → ServerAccountRecord
  | .ok models =>
    { record with
      models := if record.models = [] then models else record.models
      discoveredModels := some models }.withDiscovery (recoverModelDiscoveryState record.usageState).1
  | .error (code, retryable) => record.withDiscovery (applyModelDiscoveryFailure record.usageState code retryable)

/-- `refresh_models_best_effort` -/
def withModels (reply : ModelsReply) : ServerAccountRecord :=
  let record := record.applyDiscoveredModels reply.models
  { record with authState := reply.reauthState.getD record.authState }

end ServerAccountRecord

/-! ## Edits -/

/-- The settings that an edit names, with their new values. -/
structure AccountPatch where
  label : Option String := none
  enabled : Option Bool := none
  inPool : Option Bool := none
  draining : Option Bool := none
  allowedModels : Option (List String) := none
  excludedModels : Option (List String) := none
  priority : Option Int := none
  weight : Option Nat := none
  purchaseCostMicroUsd : Option (Option Nat) := none
  proxyId : Option (Option String) := none
  bypassCommonProxy : Option Bool := none
deriving DecidableEq, Repr

def AccountPatch.apply (patch : AccountPatch) (settings : AccountSettings) : AccountSettings :=
  { settings with
    label := patch.label.getD settings.label
    enabled := patch.enabled.getD settings.enabled
    inPool := patch.inPool.getD settings.inPool
    draining := patch.draining.getD settings.draining
    allowedModels := patch.allowedModels.getD settings.allowedModels
    excludedModels := patch.excludedModels.getD settings.excludedModels
    priority := patch.priority.getD settings.priority
    weight := patch.weight.getD settings.weight
    purchaseCostMicroUsd := patch.purchaseCostMicroUsd.getD settings.purchaseCostMicroUsd
    proxyId := patch.proxyId.getD settings.proxyId
    bypassCommonProxy := patch.bypassCommonProxy.getD settings.bypassCommonProxy }

def ServerAccountRecord.edit (record : ServerAccountRecord) (f : AccountSettings → AccountSettings) : ServerAccountRecord :=
  { record with toAccountSettings := f record.toAccountSettings }

theorem edit_id (f : AccountSettings → AccountSettings) (record : ServerAccountRecord) :
    (record.edit f).id.text = record.id.text := rfl

/-- The rule of a configuration preset for one account. -/
structure AccountRule where
  enabled : Bool
  inPool : Bool
  allowedModels : List String
  excludedModels : List String
  priority : Int
  weight : Nat
  proxyId : Option String
  bypassCommonProxy : Bool
deriving DecidableEq, Repr

def AccountRule.apply (rule : AccountRule) (settings : AccountSettings) : AccountSettings :=
  { settings with
    enabled := rule.enabled
    inPool := rule.inPool
    allowedModels := rule.allowedModels
    excludedModels := rule.excludedModels
    priority := rule.priority
    weight := rule.weight
    proxyId := rule.proxyId
    bypassCommonProxy := rule.bypassCommonProxy }

/-! ## Transactions on the stored record -/

/-- A request that has ended, as the usage writer gets to see it. -/
structure QueuedUsage where
  observation : AccountUsageObservation
  quotaSnapshot : Option QuotaSnapshot := none
  observedAtMs : Nat
deriving DecidableEq, Repr

def persistUsage (accessState : AccountAccessState) (successfulAuthState : Option AccountAuthState)
    (record : ServerAccountRecord) (queued : QueuedUsage) : ServerAccountRecord :=
  let quota := (queued.quotaSnapshot.filter fun snapshot =>
    decide (record.quota.updatedAtMs.getD 0 ≤ snapshot.updatedAtMs.getD 0)).getD record.quota
  let update := reduceAccountUsage record.usageState queued.observation queued.observedAtMs
    (if queued.observation.httpStatus = 401 then some accessState else none)
    (if queued.observation.success then successfulAuthState else none)
  let record := { record with quota }.withUsageState update.state
  if update.resetRuntimeFailures then { record with cooldowns := [], consecutiveFailures := 0 } else record

/-- What is written to a stored record in one transaction with reading it. -/
inductive Observation
  | usage (events : List QueuedUsage) (accessState : AccountAccessState) (successfulAuthState : Option AccountAuthState)
  | teamBlocked
  | authState (authState : AccountAuthState)

def ServerAccountRecord.observe (record : ServerAccountRecord) : Observation → ServerAccountRecord
  | .usage events accessState successfulAuthState => events.foldl (persistUsage accessState successfulAuthState) record
  | .teamBlocked => { record with health := .blocked, lastErrorCode := some "deactivated_workspace" }
  | .authState authState => { record with authState }

/-! ## The system -/

/-- Whoever has read a record and is going to store it: a refresh that waits for the quota, or for the models after it
had the quota or not, a refresh that is done but may start over after a weekly reset, and an edit. -/
inductive AccountTask
  | quota (original : ServerAccountRecord) (refreshModels : Bool)
  | models (record : ServerAccountRecord) (hasQuota : Bool)
  | refreshed (record : ServerAccountRecord)
  | edit (original : ServerAccountRecord)
  | done
deriving DecidableEq

/-- `written` are the settings that the last completed writes gave each account; the source has no such table. -/
structure AccountSystem where
  accounts : AccountTable
  tasks : List AccountTask
  written : Table String AccountSettings

inductive AccountStep
  | refresh (id : String) (refreshModels : Bool)
  | quotaReply (task : Nat) (reply : QuotaReply)
  | modelsReply (task : Nat) (reply : ModelsReply)
  | resetApplied (task : Nat)
  | readEdit (id : String)
  | saveEdit (task : Nat) (patch : AccountPatch)
  | replacePoolMembership (ids : List String) (inPool : Bool)
  | applyPreset (rules : Table String AccountRule)
  | observe (id : String) (observation : Observation)
  | deleteAccount (id : String)
  | importAccount (record : ServerAccountRecord)

namespace AccountSystem

def start (accounts : AccountTable) : AccountSystem :=
  { accounts, tasks := [], written := accounts.rows.map fun _ record => record.toAccountSettings }

variable (s : AccountSystem)

def task (i : Nat) : AccountTask := s.tasks.getD i .done

/-- A task reads the record it works on. -/
def read (id : String) (task : ServerAccountRecord → AccountTask) : AccountSystem :=
  match s.accounts.get? id with
  | none => s
  | some record => { s with tasks := s.tasks ++ [task record] }

/-- `save_account`, and how the task goes on. -/
def save (i : Nat) (record : ServerAccountRecord) (next : AccountTask) : AccountSystem :=
  { s with accounts := s.accounts.upsert record, tasks := s.tasks.set i next }

/-- One transaction on the settings of one account. -/
def write (id : String) (f : AccountSettings → AccountSettings) : AccountSystem :=
  { s with
    accounts := s.accounts.update id (·.edit f) (edit_id f)
    written := s.written.modify id f }

/-- One step. A step that its task cannot take changes nothing. -/
def step : AccountStep → AccountSystem
  | .refresh id refreshModels => s.read id (.quota · refreshModels)
  | .quotaReply i reply =>
    match s.task i with
    | .quota original refreshModels =>
      match reply.update with
      | some update =>
        let record := original.withQuota update reply
        s.save i record (if refreshModels then .models record true else .refreshed record)
      | none => { s with tasks := s.tasks.set i (if refreshModels then .models original false else .done) }
    | _ => s
  | .modelsReply i reply =>
    match s.task i with
    | .models record hasQuota =>
      s.save i (record.withModels reply) (if hasQuota then .refreshed (record.withModels reply) else .done)
    | _ => s
  | .resetApplied i =>
    match s.task i with
    | .refreshed record => { s with tasks := s.tasks.set i (.quota record false) }
    | _ => s
  | .readEdit id => s.read id .edit
  | .saveEdit i patch =>
    match s.task i with
    | .edit original =>
      { s.save i (original.edit patch.apply) .done with written := s.written.modify original.id.text patch.apply }
    | _ => s
  | .replacePoolMembership ids inPool =>
    -- The transaction ends with an error at the first id that is not there.
    if ids.all fun id => (s.accounts.get? id).isSome then
      ids.foldl (fun s id => s.write id fun settings => { settings with inPool }) s
    else s
  | .applyPreset rules =>
    if rules.size = s.accounts.all.length && s.accounts.all.all fun record => rules.contains record.id.text then
      rules.toList.foldl (fun s entry => s.write entry.1 entry.2.apply) s
    else s
  | .observe id observation =>
    match s.accounts.get? id with
    | none => s
    | some record =>
      let lastUsedAtMs := (record.observe observation).lastUsedAtMs
      { s with
        accounts := s.accounts.upsert (record.observe observation)
        written := s.written.modify id fun settings => { settings with lastUsedAtMs } }
  | .deleteAccount id => { s with accounts := s.accounts.delete id, written := s.written.erase id }
  | .importAccount record =>
    match s.accounts.get? record.id.text with
    | some _ => s
    | none =>
      { s with
        accounts := s.accounts.upsert record
        written := s.written.insert record.id.text record.toAccountSettings }

/-- The settings of every account are those written last, and an account is there if it was not deleted last. -/
def Kept : Prop := ∀ id, (s.accounts.get? id).map (·.toAccountSettings) = s.written[id]?

/-- The whole record that a step stores, as its task knows it, and the settings that the step itself changes. -/
def saves : AccountStep → Option (ServerAccountRecord × AccountPatch)
  | .quotaReply i reply =>
    match s.task i with
    | .quota original _ => reply.update.map fun _ => (original, {})
    | _ => none
  | .modelsReply i _ =>
    match s.task i with
    | .models record _ => some (record, {})
    | _ => none
  | .saveEdit i patch =>
    match s.task i with
    | .edit original => some (original, patch)
    | _ => none
  | _ => none

variable {s : AccountSystem}

/-- Nothing but the time of the last use differs in the settings. -/
def OnlyUsed (record record' : ServerAccountRecord) : Prop :=
  record'.id = record.id ∧
    record'.toAccountSettings = { record.toAccountSettings with lastUsedAtMs := record'.lastUsedAtMs }

theorem OnlyUsed.trans {first second third : ServerAccountRecord} (h : OnlyUsed first second) (h' : OnlyUsed second third) :
    OnlyUsed first third := by
  refine ⟨h'.1.trans h.1, h'.2.trans ?_⟩
  rw [h.2]

theorem onlyUsed_persistUsage (accessState : AccountAccessState) (successfulAuthState : Option AccountAuthState)
    (record : ServerAccountRecord) (queued : QueuedUsage) :
    OnlyUsed record (persistUsage accessState successfulAuthState record queued) := by
  unfold persistUsage
  dsimp only
  generalize reduceAccountUsage _ _ _ _ _ = update
  cases update.resetRuntimeFailures <;> exact ⟨rfl, rfl⟩

theorem sampleId_valid : Text.trim "account_1" = "account_1" ∧ Text.asciiLower "account_1" = "account_1" ∧ "account_1" ≠ "" := by
  decide

def sampleAccount : ServerAccountRecord := { id := ⟨"account_1", sampleId_valid⟩, secretRef := "account:1", inPool := true, health := .healthy }

end AccountSystem

end Zenith.Server
