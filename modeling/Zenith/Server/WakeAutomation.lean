import Mathlib
import Zenith.Automations.WakeSafety

/-!
# Wake automation on the server

`jobs/wake_automation.rs`, the handlers of `http/management/automations.rs` and `mark_natural_use`. Every step
holds `wake_lock`, makes a coordinator from the stored state and stores what the coordinator has become.

`WakeCoordinator::from_state` is also what a process does after a crash: a cycle that it finds in flight is
pending again, or over. So the coordinator that is to complete a permit never finds the permit's cycle in
flight, and `wake_attempts_recorded` says that no attempt is ever recorded. After a confirmed attempt the cycle
is claimed again (`confirmed_wake_repeats`).
-/

namespace Zenith.Server

open Zenith.Accounts Zenith.Automations Zenith.Quota Zenith.Runs Zenith.Tables WakeAutomationState

/-- A permit that `run_due` executes. `closed` says whether its cycle has been cancelled or completed by natural
use since. -/
structure WakeAttempt where
  permit : WakePermit
  closed : Bool
deriving DecidableEq, Repr

/-- The stored tasks, by id, the stored state, and the attempts under way. -/
structure WakeServer where
  tasks : Table String WakeTask
  stored : WakeAutomationState
  attempts : List WakeAttempt

/-- `Store::wake_state` where nothing is stored. -/
def WakeServer.fresh (tasks : Table String WakeTask) : WakeServer :=
  { tasks, stored := { maxCycles := 1024, maxHistory := 256 }, attempts := [] }

/-- The steps under `wake_lock`. `claimDue` and `complete` are the two halves of `run_due`. Requests that are
refused for other reasons than their task's own are not steps. -/
inductive WakeJob
  | createTask (task : WakeTask)
  | updateTask (task : WakeTask) (nowMs : Nat)
  | deleteTask (id : String) (nowMs : Nat)
  | deleteAccount (accountId : String) (nowMs : Nat)
  | scheduleTransitions (account : AccountRecord) (lastUsedAtMs : Option Nat) (models : List WakeModel)
      (transitions : List QuotaTransition) (clock : WakeTask → QuotaTransition → Nat)
  | claimDue (nowMs : Nat)
  | complete (permit : WakePermit) (completion : WakeCompletion)
  | markNaturalUse (events : List (String × Nat))

/-- `policy`. -/
def serverPolicy (models : List WakeModel) : WakeAdapterPolicy :=
  { windowsRequiringActivity := {.primary, .secondary}, models, verificationDelayMs := 5000, outputTokenCap := 8 }

/-- The windows of a stored task. -/
def WakeTask.normalized (task : WakeTask) : WakeTask := { task with windowKinds := {.primary} }

def WakeTask.accepted (task : WakeTask) : Bool :=
  match (WakeTask.normalized task).validate with
  | .ok () => true
  | .error _ => false

/-- `remove_account_from_wake_tasks`: a task that was for this account only goes. -/
def WakeTask.withoutAccount (accountId : String) (task : WakeTask) : Option WakeTask :=
  match task.accountSelector with
  | .accountIds ids =>
    if accountId ∈ ids then
      if ids.erase accountId = ∅ then none else some { task with accountSelector := .accountIds (ids.erase accountId) }
    else some task
  | _ => some task

section
variable (sha256 : List UInt8 → List UInt8)

/-- The operation cancels the cycle of the permit or completes it by natural use. -/
def closes (state : WakeAutomationState) (permit : WakePermit) : WakeOp → Bool
  | .evaluate task account transition lastNaturalUseAtMs policy nowMs =>
    permit.slot = (account.id, transition.windowKind, transition.fingerprint) &&
      (state.evaluate sha256 task account transition lastNaturalUseAtMs policy nowMs).2 = .skipped .skippedAlreadyStarted
  | .removePendingForTask taskId _ => permit.taskId = taskId
  | .removePendingForAccount accountId _ => permit.accountId = accountId
  | .markNaturalUseForAccount accountId _ => permit.accountId = accountId
  | _ => false

def closedBy (permit : WakePermit) : WakeAutomationState → List WakeOp → Bool
  | _, [] => false
  | state, op :: ops => closes sha256 state permit op || closedBy permit (op.step sha256 state).1 ops

/-- One step under the lock: load, operate, store. Nothing is stored where the stored state is refused, or where
`saves` says so. -/
def WakeServer.perform (server : WakeServer) (ops : List WakeOp) (saves : List WakeAnswer → Bool) :
    Option (WakeServer × List WakeAnswer) :=
  match server.stored.fromState sha256 with
  | .error _ => none
  | .ok state =>
    let after := runOut (fun state op => op.step sha256 state) state ops
    if saves after.2 then
      some ({ server with
        stored := after.1
        attempts := server.attempts.map fun attempt =>
          { attempt with closed := attempt.closed || closedBy sha256 attempt.permit state ops } }, after.2)
    else none

/-- The cycles that a step has finished. -/
def finishedCount (answers : List WakeAnswer) : Nat :=
  (answers.map fun
    | .finished count => count
    | _ => 0).sum

def WakeServer.step (server : WakeServer) : WakeJob → WakeServer
  | .createTask task =>
    if WakeTask.accepted task then { server with tasks := server.tasks.insert task.id (WakeTask.normalized task) } else server
  | .updateTask task nowMs =>
    if server.tasks.contains task.id && WakeTask.accepted task then
      match server.perform sha256 [.removePendingForTask task.id nowMs] fun _ => true with
      | some (server, _) => { server with tasks := server.tasks.insert task.id (WakeTask.normalized task) }
      | none => server
    else server
  | .deleteTask id nowMs =>
    if server.tasks.contains id then
      match server.perform sha256 [.removePendingForTask id nowMs] fun _ => true with
      | some (server, _) => { server with tasks := server.tasks.erase id }
      | none => server
    else server
  | .deleteAccount accountId nowMs =>
    match server.perform sha256 [.removePendingForAccount accountId nowMs] fun _ => true with
    | some (server, _) => { server with tasks := server.tasks.filterMap fun _ task => WakeTask.withoutAccount accountId task }
    | none => server
  | .scheduleTransitions account lastUsedAtMs models transitions clock =>
    let evaluations := (valuesOf server.tasks).flatMap fun task => transitions.map fun transition =>
      WakeOp.evaluate task account transition lastUsedAtMs (serverPolicy models) (clock task transition)
    match server.perform sha256 evaluations fun _ => true with
    | some (server, _) => server
    | none => server
  | .claimDue nowMs =>
    match server.perform sha256 [.claimDueAutomatic nowMs 2] fun _ => true with
    | some (server, answers) =>
      { server with attempts := server.attempts ++ (answers.flatMap (·.issued)).map fun permit => ⟨permit, false⟩ }
    | none => server
  | .complete permit completion =>
    let server := { server with attempts := server.attempts.eraseP fun attempt => attempt.permit = permit }
    match server.perform sha256 [.complete permit completion] fun _ => true with
    | some (server, _) => server
    | none => server
  | .markNaturalUse events =>
    match server.perform sha256 (events.map fun event => .markNaturalUseForAccount event.1 event.2) fun answers =>
      0 < finishedCount answers with
    | some (server, _) => server
    | none => server

/-- The permits that the step issues. -/
def issuedBy (server : WakeServer) : WakeJob → List WakePermit
  | .claimDue nowMs =>
    match server.perform sha256 [.claimDueAutomatic nowMs 2] fun _ => true with
    | some (_, answers) => answers.flatMap (·.issued)
    | none => []
  | _ => []

end

/-! ## The coordinator of a stored state -/

/-- The outcome of an attempt that was made. -/
def isAttempt : WakeOutcome → Bool
  | .confirmed => true
  | .unconfirmed => true
  | .failed => true
  | _ => false

/-- No attempt is recorded. -/
def Quiet (state : WakeAutomationState) : Prop := ∀ entry ∈ state.history, isAttempt entry.outcome = false

/-- No cycle is in flight. -/
def Settled (state : WakeAutomationState) : Prop := ∀ cycle ∈ state.cycles, cycle.status ≠ .inFlight

variable {state : WakeAutomationState}

theorem quiet_pushHistory (h : Quiet state) {entry : WakeHistory}
    (hentry : isAttempt entry.outcome = false) : Quiet (state.pushHistory entry) := by
  intro entry' hmem
  rcases List.mem_append.mp hmem with hkept | hnew
  · split at hkept
    case isTrue => exact h entry' (List.mem_of_mem_tail hkept)
    case isFalse => exact h entry' hkept
  · rw [List.mem_singleton.mp hnew]
    exact hentry

theorem quiet_pushHistories (h : Quiet state) {entries : List WakeHistory}
    (hentries : ∀ entry ∈ entries, isAttempt entry.outcome = false) : Quiet (state.pushHistories entries) := by
  induction entries generalizing state with
  | nil => exact h
  | cons entry entries ih =>
    obtain ⟨hentry, hrest⟩ := List.forall_mem_cons.mp hentries
    exact ih (quiet_pushHistory h hentry) hrest

theorem quiet_finishMatching (h : Quiet state) (matching : WakeCycle → Bool)
    {entry : WakeCycle → WakeHistory} (hentry : ∀ cycle, isAttempt (entry cycle).outcome = false) (atMs : Nat) :
    Quiet (state.finishMatching matching entry atMs).1 := by
  unfold finishMatching
  refine quiet_pushHistories ?_ fun entry' hmem => ?_
  · exact h
  · obtain ⟨cycle, -, rfl⟩ := List.mem_map.mp hmem
    exact hentry cycle

theorem history_of_reserveCycle {state state' : WakeAutomationState} {cycle : WakeCycle}
    (h : state.reserveCycle cycle = some state') : state'.history = state.history := by
  unfold reserveCycle at h
  split at h
  case isTrue =>
    split at h
    case isTrue =>
      obtain rfl := Option.some.inj h
      rfl
    case isFalse => exact nomatch h
  case isFalse =>
    obtain rfl := Option.some.inj h
    rfl

theorem settled_finishMatching (h : Settled state) (matching : WakeCycle → Bool)
    (entry : WakeCycle → WakeHistory) (atMs : Nat) : Settled (state.finishMatching matching entry atMs).1 := by
  intro cycle hmem
  simp only [finishMatching, cycles_pushHistories] at hmem
  obtain ⟨before, hbefore, rfl⟩ := List.mem_map.mp hmem
  split
  case isTrue => rintro ⟨⟩
  case isFalse => exact h before hbefore

section
variable {sha256 : List UInt8 → List UInt8}

variable {state : WakeAutomationState}

theorem quiet_completeByNaturalUse (h : Quiet state) (task : WakeTask) (account : AccountRecord)
    (transition : QuotaTransition) (key : String) (nowMs : Nat) :
    Quiet (state.completeByNaturalUse task account transition key nowMs).1 := by
  unfold completeByNaturalUse
  dsimp only
  split
  case h_1 cycle hfind =>
    split
    case isTrue => exact h
    case isFalse => exact quiet_pushHistory h rfl
  case h_2 hfind =>
    split
    case h_1 => exact h
    case h_2 state' hreserve =>
      refine quiet_pushHistory (fun entry hentry => h entry ?_) rfl
      rw [history_of_reserveCycle hreserve] at hentry
      exact hentry

theorem quiet_evaluate (h : Quiet state) (task : WakeTask) (account : AccountRecord)
    (transition : QuotaTransition) (lastNaturalUseAtMs : Option Nat) (policy : WakeAdapterPolicy) (nowMs : Nat) :
    Quiet (state.evaluate sha256 task account transition lastNaturalUseAtMs policy nowMs).1 := by
  unfold evaluate
  split
  case h_1 => exact h
  case h_2 =>
    split
    case isTrue => exact h
    split
    case isTrue => exact h
    dsimp only
    split
    case isTrue => exact quiet_completeByNaturalUse h task account transition _ nowMs
    split
    case isTrue => exact h
    split
    case h_1 => exact h
    split
    case h_1 => exact h
    case h_2 state' hreserve =>
      intro entry hentry
      rw [history_of_reserveCycle hreserve] at hentry
      exact h entry hentry

/-- A coordinator with no cycle in flight has nothing to complete. -/
theorem complete_of_settled (h : Settled state) (permit : WakePermit)
    (completion : WakeCompletion) : state.complete sha256 permit completion = (state, false) := by
  have hnone : state.cycles.find? (·.awaits permit) = none := by
    refine List.find?_eq_none.mpr fun cycle hcycle hawaits => ?_
    exact h cycle hcycle (WakeCycle.awaits_iff.mp hawaits).2.1
  unfold complete
  rw [hnone]

theorem settled_recovered (state : WakeAutomationState) : Settled (state.recovered sha256) := by
  intro cycle hmem
  obtain ⟨before, -, rfl⟩ := List.mem_map.mp hmem
  unfold WakeCycle.recover
  split
  case isTrue =>
    split
    case isTrue => exact nofun
    case isFalse => exact nofun
  case isFalse hother => exact hother

variable {state state' : WakeAutomationState}

/-- The coordinator that a step starts from. -/
theorem settled_fromState (h : state.fromState sha256 = .ok state') : Settled state' := by
  unfold fromState at h
  split at h
  case isTrue => exact nomatch h
  case isFalse =>
    obtain rfl := Except.ok.inj h
    exact settled_finishMatching (settled_recovered state) _ _ _

theorem quiet_fromState (hquiet : Quiet state) (h : state.fromState sha256 = .ok state') :
    Quiet state' := by
  unfold fromState at h
  split at h
  case isTrue => exact nomatch h
  case isFalse =>
    obtain rfl := Except.ok.inj h
    refine quiet_finishMatching (fun entry hmem => ?_) _ (fun _ => rfl) _
    obtain ⟨before, hbefore, rfl⟩ := List.mem_map.mp hmem
    exact hquiet before hbefore

/-- Only a completion records an attempt, and not on a settled coordinator. -/
theorem quiet_op (h : Quiet state) {op : WakeOp}
    (hop : (∀ permit completion, op ≠ .complete permit completion) ∨ Settled state) : Quiet (op.step sha256 state).1 := by
  cases op with
  | evaluate task account transition lastNaturalUseAtMs policy nowMs =>
    exact quiet_evaluate h task account transition lastNaturalUseAtMs policy nowMs
  | claimDue nowMs maxClaims => exact h
  | claimDueAutomatic nowMs maxClaims => exact h
  | claimDueConfirmations nowMs maxClaims => exact h
  | complete permit completion =>
    have hsettled := hop.resolve_left fun hne => hne permit completion rfl
    show Quiet (state.complete sha256 permit completion).1
    rw [complete_of_settled hsettled]
    exact h
  | removePendingForTask taskId completedAtMs => exact quiet_finishMatching h _ (fun _ => rfl) _
  | removePendingForAccount accountId completedAtMs => exact quiet_finishMatching h _ (fun _ => rfl) _
  | markNaturalUseForAccount accountId usedAtMs => exact quiet_finishMatching h _ (fun _ => rfl) _
  | restart =>
    unfold WakeOp.step
    dsimp only
    split
    case h_1 state' hstate => exact quiet_fromState h hstate
    case h_2 => exact h

variable {ops : List WakeOp}

theorem quiet_ops (hops : ∀ op ∈ ops, ∀ permit completion, op ≠ .complete permit completion)
    (h : Quiet state) : Quiet (runOut (fun state op => op.step sha256 state) state ops).1 := by
  induction ops generalizing state with
  | nil => exact h
  | cons op ops ih =>
    obtain ⟨hop, hrest⟩ := List.forall_mem_cons.mp hops
    exact ih hrest (quiet_op h (.inl hop))

variable {server server' : WakeServer} {saves : List WakeAnswer → Bool} {answers : List WakeAnswer}

theorem stored_of_perform (h : server.perform sha256 ops saves = some (server', answers)) :
    ∃ state, server.stored.fromState sha256 = .ok state ∧
      server'.stored = (runOut (fun state op => op.step sha256 state) state ops).1 := by
  unfold WakeServer.perform at h
  split at h
  case h_1 => exact nomatch h
  case h_2 state hstate =>
    dsimp only at h
    split at h
    case isTrue =>
      obtain ⟨rfl, -⟩ := Prod.mk.inj (Option.some.inj h)
      exact ⟨state, hstate, rfl⟩
    case isFalse => exact nomatch h

/-- A completion among the steps of the coordinator stands alone. -/
def Alone (ops : List WakeOp) : Prop :=
  (∀ op ∈ ops, ∀ permit completion, op ≠ .complete permit completion) ∨
    ∃ permit completion, ops = [.complete permit completion]

theorem quiet_perform (hquiet : Quiet server.stored) (hops : Alone ops)
    (h : server.perform sha256 ops saves = some (server', answers)) : Quiet server'.stored := by
  obtain ⟨state, hstate, hstored⟩ := stored_of_perform h
  have hloaded := quiet_fromState hquiet hstate
  rw [hstored]
  rcases hops with hops | ⟨permit, completion, rfl⟩
  · exact quiet_ops hops hloaded
  · have hcomplete : Quiet ((WakeOp.complete permit completion).step sha256 state).1 :=
      quiet_op hloaded (.inr (settled_fromState hstate))
    exact hcomplete

theorem alone_singleton (op : WakeOp) : Alone [op] := by
  cases op with
  | complete permit completion => exact .inr ⟨permit, completion, rfl⟩
  | _ =>
    refine .inl fun op' hmem permit completion => ?_
    rw [List.mem_singleton.mp hmem]
    exact nofun

variable {server : WakeServer}

theorem quiet_step (h : Quiet server.stored) (job : WakeJob) : Quiet (server.step sha256 job).stored := by
  cases job with
  | createTask task =>
    unfold WakeServer.step
    dsimp only
    split <;> exact h
  | updateTask task nowMs =>
    unfold WakeServer.step
    dsimp only
    split
    case isTrue =>
      split
      case h_1 server' answers hperform =>
        have hquiet := quiet_perform h (alone_singleton _) hperform
        exact hquiet
      case h_2 => exact h
    case isFalse => exact h
  | deleteTask id nowMs =>
    unfold WakeServer.step
    dsimp only
    split
    case isTrue =>
      split
      case h_1 server' answers hperform =>
        have hquiet := quiet_perform h (alone_singleton _) hperform
        exact hquiet
      case h_2 => exact h
    case isFalse => exact h
  | deleteAccount accountId nowMs =>
    unfold WakeServer.step
    dsimp only
    split
    case h_1 server' answers hperform =>
      have hquiet := quiet_perform h (alone_singleton _) hperform
      exact hquiet
    case h_2 => exact h
  | scheduleTransitions account lastUsedAtMs models transitions clock =>
    unfold WakeServer.step
    dsimp only
    split
    case h_1 server' answers hperform =>
      refine quiet_perform h (.inl fun op hmem permit completion => ?_) hperform
      obtain ⟨task, -, hmem⟩ := List.mem_flatMap.mp hmem
      obtain ⟨transition, -, rfl⟩ := List.mem_map.mp hmem
      exact nofun
    case h_2 => exact h
  | claimDue nowMs =>
    unfold WakeServer.step
    dsimp only
    split
    case h_1 server' answers hperform =>
      have hquiet := quiet_perform h (alone_singleton _) hperform
      exact hquiet
    case h_2 => exact h
  | complete permit completion =>
    unfold WakeServer.step
    dsimp only
    split
    case h_1 server' answers hperform =>
      refine quiet_perform ?_ (alone_singleton _) hperform
      exact h
    case h_2 => exact h
  | markNaturalUse events =>
    unfold WakeServer.step
    dsimp only
    split
    case h_1 server' answers hperform =>
      refine quiet_perform h (.inl fun op hmem permit completion => ?_) hperform
      obtain ⟨event, -, rfl⟩ := List.mem_map.mp hmem
      exact nofun
    case h_2 => exact h

/-! ## Attempts and their records -/

def recordedOutcome : WakeCompletionOutcome → WakeOutcome
  | .confirmed => .confirmed
  | .unconfirmed => .unconfirmed
  | .failed => .failed

/-- The entry is of the permit, with the outcome of its execution. -/
def records (permit : WakePermit) (completion : WakeCompletion) (entry : WakeHistory) : Bool :=
  entry.taskId = permit.taskId && entry.accountId = permit.accountId && entry.windowKind = permit.windowKind &&
    entry.transitionFingerprint = permit.transitionFingerprint && entry.attempt = permit.attempt &&
    entry.startedAtMs = permit.reservedAtMs && entry.outcome = recordedOutcome completion.outcome

variable (sha256) in
/-- The completion of a permit leaves exactly one entry of it; and after a confirmed attempt no later step issues a
permit for its cycle. -/
def Completed (server : WakeServer) (permit : WakePermit) (completion : WakeCompletion) (later : List WakeJob) : Prop :=
  let after := server.step sha256 (.complete permit completion)
  after.stored.history.countP (records permit completion) = 1 ∧
    (completion.outcome = .confirmed → ∀ between job rest, later = between ++ job :: rest →
      ∀ next ∈ issuedBy sha256 (run (WakeServer.step sha256) after between) job, next.cycleKey ≠ permit.cycleKey)

/-- The permit is being executed, and its cycle is still its own. -/
def WakeServer.Executes (server : WakeServer) (permit : WakePermit) : Prop := ⟨permit, false⟩ ∈ server.attempts

/-- The step does not end the execution of a permit whose cycle is still its own. -/
def EndsNone (server : WakeServer) (job : WakeJob) : Prop :=
  ∀ permit completion, job = .complete permit completion → ¬server.Executes permit

theorem quiet_run (h : Quiet server.stored) (jobs : List WakeJob) :
    Quiet (run (WakeServer.step sha256) server jobs).stored :=
  run_invariant_of_forall (I := fun server : WakeServer => Quiet server.stored) (fun _ job hserver => quiet_step hserver job) h jobs

theorem not_completed (h : Quiet server.stored) (permit : WakePermit) (completion : WakeCompletion)
    (later : List WakeJob) : ¬Completed sha256 server permit completion later := by
  intro hcompleted
  have hnone : (server.step sha256 (.complete permit completion)).stored.history.countP (records permit completion) = 0 := by
    refine List.countP_eq_zero.mpr fun entry hmem hrecords => ?_
    have hquiet : isAttempt entry.outcome = false := quiet_step h (.complete permit completion) entry hmem
    have houtcome : entry.outcome = recordedOutcome completion.outcome := by
      unfold records at hrecords
      exact of_decide_eq_true (Bool.and_eq_true_iff.mp hrecords).2
    rw [houtcome] at hquiet
    revert hquiet
    cases completion.outcome <;> decide
  exact absurd (hnone.symm.trans hcompleted.1) (by decide)

/-- In a run of the server every permit that was not cancelled or completed by natural use is completed properly
exactly if none is completed at all. -/
theorem wake_attempts_recorded (tasks : Table String WakeTask) (jobs : List WakeJob) :
    (∀ before permit completion after, jobs = before ++ .complete permit completion :: after →
      (run (WakeServer.step sha256) (.fresh tasks) before).Executes permit →
      Completed sha256 (run (WakeServer.step sha256) (.fresh tasks) before) permit completion after) ↔
    StepsMeet (WakeServer.step sha256) EndsNone (.fresh tasks) jobs := by
  have hfresh : Quiet (WakeServer.fresh tasks).stored := fun _ hmem => nomatch hmem
  constructor
  · intro h
    refine StepsMeet.of_cuts fun before job after heq permit completion hjob hexecutes => ?_
    subst hjob
    exact not_completed (quiet_run hfresh before) permit completion after (h before permit completion after heq hexecutes)
  · intro h before permit completion after heq hexecutes
    rw [heq, StepsMeet.append] at h
    exact absurd hexecutes (h.2.1 permit completion rfl)

end

/-! ## A confirmed attempt -/

/-- The window of the account becomes full, its cycle is claimed, and the wake is confirmed. -/
def confirmedRun : List WakeJob :=
  [.scheduleTransitions sampleAccount none [{ id := "mini", lightnessRank := 1, wakeCapable := true }]
      [{ windowKind := .primary, fingerprint := "cycle-1", transitionedAtMs := 0 }] fun _ _ => 10,
    .claimDue 20]

def sampleServer : WakeServer := .fresh (Std.ExtTreeMap.ofList [("first", sampleTask "first")])

def serverPermit : WakePermit := { samplePermit with
  verificationDelayMs := 5000
  outputTokenCap := 8
  request := { accountId := "acct", modelId := "mini", windowKind := .primary, outputTokenCap := 8 }
  verification := { windowKind := .primary, baselineWindow := none, verifyAfterMs := 5000 } }

theorem confirmed_wake_repeats :
    (run (WakeServer.step sampleSha256) sampleServer confirmedRun).Executes serverPermit ∧
      ¬Completed sampleSha256 (run (WakeServer.step sampleSha256) sampleServer confirmedRun) serverPermit
        { outcome := .confirmed, completedAtMs := 30 } [.claimDue 40] ∧
      (issuedBy sampleSha256 ((run (WakeServer.step sampleSha256) sampleServer confirmedRun).step sampleSha256
        (.complete serverPermit { outcome := .confirmed, completedAtMs := 30 })) (.claimDue 40)).map (·.cycleKey) =
          [serverPermit.cycleKey] := by
  refine ⟨?_, ?_, ?_⟩
  · show (⟨serverPermit, false⟩ : WakeAttempt) ∈ _
    decide +kernel
  · intro h
    exact absurd h.1 (by decide +kernel)
  · decide +kernel

end Zenith.Server
