import Zenith.Automations.WakeSafety

/-!
# Restarts of the wake coordinator

`from_state` refuses a saved state with a cycle that does not check, and a refused state is lost with
every schedule in it. `Restorable` is what the checks ask for: positive bounds that hold, and cycles
that check and stand for primary windows. Every operation on an account that is not blank keeps it
(`restorable_step`), so whatever was saved can be restored, and `Restored` says what each cycle
becomes.
-/

namespace Zenith.Automations

open Zenith.Accounts Zenith.Quota Zenith.Tables Zenith.Text Zenith.Bytes Zenith.Runs
  WakeAutomationState

/-! ## Cycles that check -/

/-- The cycle passes the checks of a restart, and stands for a primary window. -/
structure WakeCycle.Checks (cycle : WakeCycle) : Prop where
  key : cycle.key ≠ ""
  taskId : isSafeId cycle.taskId = true
  accountId : trim cycle.accountId ≠ ""
  fingerprint : trim cycle.transitionFingerprint ≠ ""
  limit : cycle.WithinLimit
  jitter : cycle.jitterSeconds ≤ maxWakeJitterSeconds
  payload : cycle.status = .completed ∨
    cycle.request.isSome = true ∧ cycle.verification.isSome = true
  primary : cycle.windowKind = .primary

variable {cycle : WakeCycle}

theorem WakeCycle.Checks.valid (h : cycle.Checks) : cycle.valid = true := by
  simp only [WakeCycle.valid, Bool.and_eq_true, Bool.or_eq_true, decide_eq_true_eq]
  exact ⟨⟨⟨⟨⟨⟨⟨⟨h.key, h.taskId⟩, h.accountId⟩, h.fingerprint⟩, h.limit.1.1⟩, h.limit.1.2⟩, h.limit.2⟩,
    h.jitter⟩, h.payload⟩

theorem checks_finish (h : cycle.Checks) (nowMs : Nat) :
    (cycle.finish nowMs).Checks :=
  { h with payload := .inl rfl }

/-- A cycle that is not completed has a request and a verification, which a new status keeps. -/
theorem checks_reopened (h : cycle.Checks) (hopen : cycle.status ≠ .completed)
    (status : WakeCycleStatus) (dueAtMs recordedAtMs : Nat) :
    ({ cycle with status, dueAtMs, recordedAtMs } : WakeCycle).Checks :=
  { h with payload := .inr (h.payload.resolve_left hopen) }

variable (sha256 : List UInt8 → List UInt8) {bounds : Nat × Nat}

theorem checks_recover (h : cycle.Checks) : (cycle.recover sha256).Checks := by
  unfold WakeCycle.recover
  split
  case isTrue hflight =>
    have hopen : cycle.status ≠ .completed := by
      rw [hflight]
      nofun
    split
    case isTrue => exact checks_reopened h hopen .pending _ cycle.recordedAtMs
    case isFalse => exact checks_finish h cycle.recordedAtMs
  case isFalse => exact h

theorem checks_settle (h : cycle.Checks) (hflight : cycle.status = .inFlight)
    (outcome : WakeCompletionOutcome) (completedAtMs : Nat) :
    (cycle.settle sha256 outcome completedAtMs).Checks := by
  have hopen : cycle.status ≠ .completed := by
    rw [hflight]
    nofun
  unfold WakeCycle.settle
  split
  case isTrue => exact checks_finish h completedAtMs
  case isFalse => exact checks_reopened h hopen .pending _ completedAtMs

theorem checks_claim? {cycle after : WakeCycle} {permit : WakePermit} {nowMs : Nat}
    {mode : WakeClaimMode} (h : cycle.Checks)
    (hclaim : cycle.claim? nowMs mode = some (after, permit)) : after.Checks := by
  have hlimit := withinLimit_claims (claims_of_claim? hclaim) h.limit
  unfold WakeCycle.claim? at hclaim
  split at hclaim
  case isTrue => cases hclaim
  case isFalse =>
    split at hclaim
    case h_1 hrequest hverification =>
      cases hclaim
      have hpayload : cycle.request.isSome = true ∧ cycle.verification.isSome = true := by
        rw [hrequest, hverification]
        exact ⟨rfl, rfl⟩
      exact { h with limit := hlimit, payload := .inr hpayload }
    case h_2 => cases hclaim

/-! ## States that can be restored -/

/-- The state has its bounds and passes the checks of a restart, and all its cycles stand for primary
windows. -/
structure Restorable (bounds : Nat × Nat) (state : WakeAutomationState) : Prop where
  bounds : (state.maxCycles, state.maxHistory) = bounds
  maxCycles : 0 < state.maxCycles
  maxHistory : 0 < state.maxHistory
  cycles : state.cycles.length ≤ state.maxCycles
  history : state.history.length ≤ state.maxHistory
  checks : ∀ cycle ∈ state.cycles, cycle.Checks

variable {maxCycles maxHistory : Nat} {state : WakeAutomationState}

theorem restorable_new (h : WakeAutomationState.new maxCycles maxHistory = .ok state) :
    Restorable (maxCycles, maxHistory) state := by
  unfold WakeAutomationState.new at h
  split at h
  case isTrue => cases h
  case isFalse hpos =>
    obtain rfl := Except.ok.inj h
    simp only [Bool.or_eq_true, decide_eq_true_eq, not_or] at hpos
    exact ⟨rfl, Nat.pos_of_ne_zero hpos.1, Nat.pos_of_ne_zero hpos.2, Nat.zero_le _, Nat.zero_le _,
      fun _ hmem => by cases hmem⟩

theorem Restorable.length_cycles (h : Restorable (maxCycles, maxHistory) state) : state.cycles.length ≤ maxCycles :=
  h.cycles.trans_eq (congrArg Prod.fst h.bounds)

theorem Restorable.length_history
    (h : Restorable (maxCycles, maxHistory) state) : state.history.length ≤ maxHistory :=
  h.history.trans_eq (congrArg Prod.snd h.bounds)

variable {cycles : List WakeCycle}

/-- Other cycles in the places of the old ones. -/
theorem Restorable.with_cycles (h : Restorable bounds state)
    (hlength : cycles.length ≤ state.maxCycles)
    (hchecks : ∀ cycle ∈ cycles, cycle.Checks) : Restorable bounds { state with cycles } :=
  { h with cycles := hlength, checks := hchecks }

theorem restorable_pushHistory (h : Restorable bounds state)
    (entry : WakeHistory) : Restorable bounds (state.pushHistory entry) := by
  have hpos := h.maxHistory
  have hhistory := h.history
  refine { h with history := ?_ }
  unfold pushHistory
  split <;> simp only [List.length_append, List.length_tail, List.length_singleton] <;> omega

theorem restorable_pushHistories (h : Restorable bounds state)
    (entries : List WakeHistory) : Restorable bounds (state.pushHistories entries) := by
  unfold pushHistories
  induction entries generalizing state with
  | nil => exact h
  | cons entry entries ih => exact ih (restorable_pushHistory h entry)

theorem restorable_finishMatching (h : Restorable bounds state)
    (matching : WakeCycle → Bool) (entry : WakeCycle → WakeHistory) (atMs : Nat) :
    Restorable bounds (state.finishMatching matching entry atMs).1 := by
  refine restorable_pushHistories (h.with_cycles ?_ fun cycle hmem => ?_) _
  · rw [List.length_map]
    exact h.cycles
  · obtain ⟨before, hbefore, rfl⟩ := List.mem_map.mp hmem
    split
    case isTrue => exact checks_finish (h.checks before hbefore) atMs
    case isFalse => exact h.checks before hbefore

theorem restorable_reserveCycle {state state' : WakeAutomationState}
    (h : Restorable bounds state) (hcycle : cycle.Checks) (hreserve : state.reserveCycle cycle = some state') :
    Restorable bounds state' := by
  unfold reserveCycle at hreserve
  split at hreserve
  case isTrue hfull =>
    split at hreserve
    case isTrue hsome =>
      obtain rfl := Option.some.inj hreserve
      obtain ⟨completed, hmem, hdone⟩ := List.any_eq_true.mp hsome
      have hlength : (state.cycles.eraseP fun cycle => cycle.status = .completed).length =
          state.cycles.length - 1 := List.length_eraseP_of_mem hmem hdone
      have hpos := List.length_pos_of_mem hmem
      have hcycles := h.cycles
      refine h.with_cycles ?_ fun other hother => ?_
      · rw [List.length_append, hlength, List.length_singleton]
        omega
      · rcases List.mem_append.mp hother with hother | hother
        · exact h.checks other (List.eraseP_subset hother)
        · exact List.mem_singleton.mp hother ▸ hcycle
    case isFalse => cases hreserve
  case isFalse hroom =>
    obtain rfl := Option.some.inj hreserve
    refine h.with_cycles ?_ fun other hother => ?_
    · rw [List.length_append, List.length_singleton]
      omega
    · rcases List.mem_append.mp hother with hother | hother
      · exact h.checks other hother
      · exact List.mem_singleton.mp hother ▸ hcycle

theorem length_replaceFirst (found : WakeCycle → Bool) (f : WakeCycle → WakeCycle)
    (cycles : List WakeCycle) : (replaceFirst found f cycles).length = cycles.length := by
  induction cycles with
  | nil => rfl
  | cons cycle cycles ih =>
    unfold replaceFirst
    split
    case isTrue => rfl
    case isFalse => exact congrArg Nat.succ ih

variable {found : WakeCycle → Bool} {f : WakeCycle → WakeCycle}

theorem checks_replaceFirst (h : ∀ cycle ∈ cycles, cycle.Checks)
    (hf : ∀ cycle, found cycle = true → cycle.Checks → (f cycle).Checks) :
    ∀ cycle ∈ replaceFirst found f cycles, cycle.Checks := by
  induction cycles with
  | nil => exact fun _ hmem => by cases hmem
  | cons cycle cycles ih =>
    rw [List.forall_mem_cons] at h
    unfold replaceFirst
    split
    case isTrue hfound => exact List.forall_mem_cons.mpr ⟨hf cycle hfound h.1, h.2⟩
    case isFalse => exact List.forall_mem_cons.mpr ⟨h.1, ih h.2⟩

theorem restorable_replaceFirst (h : Restorable bounds state)
    (hf : ∀ cycle, found cycle = true → cycle.Checks → (f cycle).Checks) :
    Restorable bounds { state with cycles := replaceFirst found f state.cycles } :=
  h.with_cycles (by rw [length_replaceFirst]; exact h.cycles) (checks_replaceFirst h.checks hf)

theorem restorable_claimDueMatching (h : Restorable bounds state)
    (nowMs maxClaims : Nat) (mode : WakeClaimMode) :
    Restorable bounds (state.claimDueMatching nowMs maxClaims mode).1 := by
  have hloop : ∀ (budget : Nat) (cycles : List WakeCycle), (∀ cycle ∈ cycles, cycle.Checks) →
      (claimDueMatching.claimLoop nowMs mode budget cycles).1.length = cycles.length ∧
        ∀ cycle ∈ (claimDueMatching.claimLoop nowMs mode budget cycles).1, cycle.Checks := by
    intro budget cycles
    induction cycles generalizing budget with
    | nil =>
      intro _
      cases budget <;> exact ⟨rfl, fun _ hmem => by cases hmem⟩
    | cons cycle cycles ih =>
      intro hchecks
      have hall := List.forall_mem_cons.mp hchecks
      cases budget with
      | zero => exact ⟨rfl, hchecks⟩
      | succ budget =>
        unfold claimDueMatching.claimLoop
        cases hclaim : cycle.claim? nowMs mode with
        | none =>
          obtain ⟨hlength, hrest⟩ := ih (budget + 1) hall.2
          exact ⟨congrArg Nat.succ hlength, List.forall_mem_cons.mpr ⟨hall.1, hrest⟩⟩
        | some claimed =>
          obtain ⟨hlength, hrest⟩ := ih budget hall.2
          exact ⟨congrArg Nat.succ hlength,
            List.forall_mem_cons.mpr ⟨checks_claim? hall.1 hclaim, hrest⟩⟩
  obtain ⟨hlength, hchecks⟩ := hloop maxClaims state.cycles h.checks
  exact h.with_cycles (hlength ▸ h.cycles) hchecks

theorem restorable_complete (h : Restorable bounds state) (permit : WakePermit)
    (completion : WakeCompletion) : Restorable bounds (state.complete sha256 permit completion).1 := by
  unfold complete
  split
  case h_1 => exact h
  case h_2 =>
    refine restorable_pushHistory (restorable_replaceFirst h fun cycle hawaits hcycle => ?_) _
    exact checks_settle sha256 hcycle (WakeCycle.awaits_iff.mp hawaits).2.1 _ _

/-! ## Restarts -/

/-- Finishing no cycle changes nothing. -/
theorem finishMatching_none {matching : WakeCycle → Bool}
    (h : ∀ cycle ∈ state.cycles, matching cycle = false) (entry : WakeCycle → WakeHistory)
    (atMs : Nat) : (state.finishMatching matching entry atMs).1 = state := by
  have hfilter : (state.cycles.filter fun cycle => cycle.status ≠ .completed && matching cycle) = [] :=
    List.filter_eq_nil_iff.mpr fun cycle hmem => by simp [h cycle hmem]
  have hmap : (state.cycles.map fun cycle =>
      if (cycle.status ≠ .completed && matching cycle) = true then cycle.finish atMs else cycle) =
      state.cycles := by
    refine (List.map_congr_left fun cycle hmem => ?_).trans (List.map_id _)
    rw [h cycle hmem, Bool.and_false, if_neg Bool.false_ne_true]
    rfl
  unfold finishMatching
  dsimp only
  rw [hfilter, hmap]
  rfl

/-- A restorable state is restored: with its cycles recovered in place, and nothing else to cancel. -/
theorem fromState_of_restorable (h : Restorable bounds state) :
    state.fromState sha256 = .ok (state.recovered sha256) := by
  have hchecked : (state.maxCycles = 0 || state.maxHistory = 0 ||
      decide (state.maxCycles < state.cycles.length) ||
      decide (state.maxHistory < state.history.length) ||
      state.cycles.any (!·.valid)) = false := by
    have hvalid : state.cycles.any (!·.valid) = false :=
      List.any_eq_false.mpr fun cycle hmem => by simp [(h.checks cycle hmem).valid]
    have hcycles := h.cycles
    have hhistory := h.history
    simp [hvalid, Nat.ne_of_gt h.maxCycles, Nat.ne_of_gt h.maxHistory, hcycles, hhistory]
  unfold fromState
  rw [hchecked]
  refine congrArg Except.ok (finishMatching_none (fun cycle hmem => ?_) _ 0)
  -- No cycle is left to be cancelled for its window.
  obtain ⟨before, hbefore, rfl⟩ := List.mem_map.mp hmem
  simp [(checks_recover sha256 (h.checks before hbefore)).primary]

theorem restorable_recovered (h : Restorable bounds state) :
    Restorable bounds (state.recovered sha256) where
  bounds := h.bounds
  maxCycles := h.maxCycles
  maxHistory := h.maxHistory
  cycles := by
    rw [recovered, List.length_map]
    exact h.cycles
  history := by
    rw [recovered, List.length_map]
    exact h.history
  checks cycle hmem := by
    obtain ⟨before, hbefore, rfl⟩ := List.mem_map.mp hmem
    exact checks_recover sha256 (h.checks before hbefore)

/-! ## New cycles -/

/-- The facts of an evaluation that gets as far as a cycle. -/
structure Wakes (task : WakeTask) (account : AccountRecord) (transition : QuotaTransition) : Prop where
  taskId : isSafeId task.id = true
  limit : 1 ≤ task.maxAttemptsPerCycle ∧ task.maxAttemptsPerCycle ≤ maxWakeAttempts
  jitter : task.jitterSeconds ≤ maxWakeJitterSeconds
  accountId : trim account.id ≠ ""
  fingerprint : trim transition.fingerprint ≠ ""
  primary : transition.windowKind = .primary

variable {account : AccountRecord}

variable {transition : QuotaTransition}

theorem wakes_of_allowed {task : WakeTask}
    {policy : WakeAdapterPolicy} (hvalid : task.validate = .ok ()) (hnamed : trim account.id ≠ "")
    (hallowed : wakeAllowed task account transition policy = true) : Wakes task account transition := by
  simp only [wakeAllowed, Bool.and_eq_true, decide_eq_true_eq] at hallowed
  obtain ⟨hid, hattempts, hjitter⟩ := WakeTask.checks_of_validate hvalid
  exact ⟨hid, hattempts, hjitter, hnamed, hallowed.1.1.2, hallowed.1.1.1.1.2⟩

theorem cycleKey_ne_empty {sha256 : List UInt8 → List UInt8}
    (hdigest : ∀ input, (sha256 input).length = 32) (account : AccountRecord)
    (transition : QuotaTransition) : cycleKey sha256 account transition ≠ "" := by
  intro hempty
  have hlength := hdigest (utf8 (account.id ++ "\x00" ++ windowKindName transition.windowKind ++
    "\x00" ++ transition.fingerprint))
  unfold cycleKey hexEncode at hempty
  generalize sha256 _ = digest at hlength hempty
  cases digest with
  | nil => cases hlength
  | cons byte digest =>
    have hlist := congrArg String.toList hempty
    rw [String.toList_ofList] at hlist
    cases hlist

theorem restorable_completeByNaturalUse (h : Restorable bounds state)
    {task : WakeTask}
    (hwakes : Wakes task account transition) {key : String} (hkey : key ≠ "") (nowMs : Nat) :
    Restorable bounds (state.completeByNaturalUse task account transition key nowMs).1 := by
  unfold completeByNaturalUse
  dsimp only
  split
  case h_1 cycle hfind =>
    split
    case isTrue => exact h
    case isFalse =>
      refine restorable_pushHistory (restorable_replaceFirst h fun cycle _ hcycle => ?_) _
      exact checks_finish hcycle nowMs
  case h_2 hfind =>
    split
    case h_1 => exact h
    case h_2 state' hreserve =>
      refine restorable_pushHistory (restorable_reserveCycle h ?_ hreserve) _
      exact ⟨hkey, hwakes.taskId, hwakes.accountId, hwakes.fingerprint,
        ⟨hwakes.limit, Nat.zero_le _⟩, hwakes.jitter, .inl rfl, hwakes.primary⟩

theorem restorable_evaluate (hdigest : ∀ input, (sha256 input).length = 32)
    (h : Restorable bounds state) (task : WakeTask)
    (hnamed : trim account.id ≠ "") (transition : QuotaTransition)
    (lastNaturalUseAtMs : Option Nat) (policy : WakeAdapterPolicy) (nowMs : Nat) :
    Restorable bounds
      (state.evaluate sha256 task account transition lastNaturalUseAtMs policy nowMs).1 := by
  have hkey := cycleKey_ne_empty hdigest account transition
  unfold evaluate
  split
  case h_1 => exact h
  case h_2 hvalid =>
    split
    case isTrue => exact h
    split
    case isTrue => exact h
    case isFalse hallowed =>
      rw [Bool.not_eq_true, Bool.not_eq_false'] at hallowed
      have hwakes := wakes_of_allowed hvalid hnamed hallowed
      dsimp only
      split
      case isTrue => exact restorable_completeByNaturalUse h hwakes hkey nowMs
      split
      case isTrue => exact h
      split
      case h_1 => exact h
      split
      case h_1 => exact h
      case h_2 hreserve =>
        refine restorable_reserveCycle h ?_ hreserve
        exact ⟨hkey, hwakes.taskId, hwakes.accountId, hwakes.fingerprint,
          ⟨hwakes.limit, Nat.zero_le _⟩, hwakes.jitter, .inr ⟨rfl, rfl⟩, hwakes.primary⟩

/-! ## Runs -/

/-- The account of an evaluation has an id. -/
def WakeOp.Named : WakeOp → Prop
  | .evaluate _ account _ _ _ _ => trim account.id ≠ ""
  | _ => True

theorem restorable_step (hdigest : ∀ input, (sha256 input).length = 32)
    (h : Restorable bounds state) (op : WakeOp) (hnamed : op.Named) :
    Restorable bounds (wakeStep sha256 state op) := by
  cases op with
  | evaluate task account transition lastNaturalUseAtMs policy nowMs =>
    rw [wakeStep, WakeOp.step, Prod.map_fst, id_eq]
    exact restorable_evaluate sha256 hdigest h task hnamed transition lastNaturalUseAtMs policy nowMs
  | claimDue nowMs maxClaims => exact restorable_claimDueMatching h nowMs maxClaims .any
  | claimDueAutomatic nowMs maxClaims => exact restorable_claimDueMatching h nowMs maxClaims .automatic
  | claimDueConfirmations nowMs maxClaims =>
    exact restorable_claimDueMatching h nowMs maxClaims .confirmation
  | complete permit completion => exact restorable_complete sha256 h permit completion
  | removePendingForTask taskId completedAtMs => exact restorable_finishMatching h _ _ completedAtMs
  | removePendingForAccount accountId completedAtMs =>
    exact restorable_finishMatching h _ _ completedAtMs
  | markNaturalUseForAccount accountId usedAtMs => exact restorable_finishMatching h _ _ usedAtMs
  | restart =>
    simp only [wakeStep, WakeOp.step, fromState_of_restorable sha256 h]
    exact restorable_recovered sha256 h

theorem restorable_run (hdigest : ∀ input, (sha256 input).length = 32)
    (h : Restorable bounds state) (ops : List WakeOp)
    (hnamed : ∀ op ∈ ops, op.Named) : Restorable bounds (run (wakeStep sha256) state ops) := by
  induction ops generalizing state with
  | nil => exact h
  | cons op ops ih =>
    rw [List.forall_mem_cons] at hnamed
    exact ih (restorable_step sha256 hdigest h op hnamed.1) hnamed.2

/-- `WakeCoordinator::pending`. -/
def WakeAutomationState.pending (state : WakeAutomationState) : List WakeSchedule :=
  state.cycles.filterMap WakeCycle.schedule

/-- What a restart leaves of a cycle: it keeps its identity and its attempts. Only a cycle in flight
changes, to pending when an attempt is left and to completed otherwise. -/
structure Restored (before after : WakeCycle) : Prop where
  key : after.key = before.key
  slot : after.slot = before.slot
  attemptsStarted : after.attemptsStarted = before.attemptsStarted
  maxAttempts : after.maxAttempts = before.maxAttempts
  atRest : before.status ≠ .inFlight → after = before
  inFlight : before.status = .inFlight →
    after.status = if before.attemptsStarted < before.maxAttempts then .pending else .completed

theorem restored_recover (cycle : WakeCycle) : Restored cycle (cycle.recover sha256) := by
  have hkeeps := keeps_recover sha256 cycle
  refine ⟨hkeeps.key, hkeeps.slot, hkeeps.attemptsStarted, hkeeps.maxAttempts, fun hrest => ?_,
    fun hflight => ?_⟩
  · rw [WakeCycle.recover, if_neg hrest]
  · rw [WakeCycle.recover, if_pos hflight]
    split <;> rfl

/-- The schedules of the pending cycles come back in their order, among those of the cycles that were
in flight. -/
theorem pending_recovered (cycles : List WakeCycle) :
    (cycles.filterMap WakeCycle.schedule).Sublist
      ((cycles.map (·.recover sha256)).filterMap WakeCycle.schedule) := by
  induction cycles with
  | nil => exact List.Sublist.refl _
  | cons cycle cycles ih =>
    rw [List.map_cons, List.filterMap_cons, List.filterMap_cons]
    by_cases hflight : cycle.status = .inFlight
    · have hnone : cycle.schedule = none := by simp [WakeCycle.schedule, hflight]
      rw [hnone]
      cases (cycle.recover sha256).schedule with
      | none => exact ih
      | some schedule => exact ih.cons schedule
    · rw [(restored_recover sha256 cycle).atRest hflight]
      cases cycle.schedule with
      | none => exact ih
      | some schedule => exact ih.cons_cons schedule

/-- Whatever operations on named accounts have made of a coordinator, its saved state can be restored
within its bounds. The cycles stay in their places, all on primary windows, with the attempts they
had; those not in flight are the same, and the schedules of the pending ones are among the schedules
afterwards. -/
theorem saved_state_restores (hdigest : ∀ input, (sha256 input).length = 32)
    {maxCycles maxHistory : Nat} {start : WakeAutomationState}
    (hnew : WakeAutomationState.new maxCycles maxHistory = .ok start) (ops : List WakeOp)
    (hnamed : ∀ op ∈ ops, op.Named) :
    let saved := run (wakeStep sha256) start ops
    ∃ restored, saved.fromState sha256 = .ok restored ∧
      List.Forall₂ Restored saved.cycles restored.cycles ∧
      (∀ cycle ∈ saved.cycles, cycle.windowKind = .primary) ∧
      saved.pending.Sublist restored.pending ∧
      saved.cycles.length ≤ maxCycles ∧ saved.history.length ≤ maxHistory ∧
      restored.cycles.length ≤ maxCycles ∧ restored.history.length ≤ maxHistory := by
  intro saved
  have hsaved : Restorable (maxCycles, maxHistory) saved :=
    restorable_run sha256 hdigest (restorable_new hnew) ops hnamed
  have hrestored := restorable_recovered sha256 hsaved
  refine ⟨saved.recovered sha256, fromState_of_restorable sha256 hsaved, ?_,
    fun cycle hmem => (hsaved.checks cycle hmem).primary, pending_recovered sha256 saved.cycles,
    hsaved.length_cycles, hsaved.length_history, hrestored.length_cycles, hrestored.length_history⟩
  exact List.forall₂_map_right_iff.mpr (List.forall₂_same.mpr fun cycle _ => restored_recover sha256 cycle)

/-- SHA-256 on the inputs of the run below, and digests of the same length elsewhere. -/
def paddedSha256 (input : List UInt8) : List UInt8 :=
  if (sampleSha256 input).length = 32 then sampleSha256 input else List.replicate 32 0

theorem saved_state_restores_sample :
    ∃ restored, (run (wakeStep paddedSha256) sampleStart
        [sampleEvaluate "first" "cycle-1" 10, .claimDue 20 1]).fromState paddedSha256 = .ok restored ∧
      restored.cycles.length ≤ 1 := by
  have hdigest : ∀ input, (paddedSha256 input).length = 32 := by
    intro input
    unfold paddedSha256
    split
    case isTrue h => exact h
    case isFalse => exact List.length_replicate
  have hnew : WakeAutomationState.new 1 8 = .ok sampleStart := rfl
  obtain ⟨restored, hok, -, -, -, -, -, hcycles, -⟩ := saved_state_restores paddedSha256 hdigest hnew
    [sampleEvaluate "first" "cycle-1" 10, .claimDue 20 1] (by
      intro op hop
      rcases List.mem_cons.mp hop with rfl | hop
      · show trim "acct" ≠ ""
        decide +kernel
      · rw [List.mem_singleton.mp hop]
        trivial)
  exact ⟨restored, hok, hcycles⟩

end Zenith.Automations
