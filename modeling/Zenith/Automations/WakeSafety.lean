import Mathlib
import Zenith.Automations.WakeSteps
import Zenith.Lib.Runs

/-!
# Wake attempts over whole runs

This module follows the cycle in one slot through every run of the coordinator, restarts included.

* `tallied_run`: the permits given to a cycle since its creation are the attempts `1, 2, ..` it has
  started.
* `issuedTo_of_completed`: a completed cycle gives no permit.
* `wake_attempts_safe` puts them together.

`complete` finds its cycle by key, status and attempt and does not ask which task holds it. A cycle
that was dropped and created again by another task is settled by a permit of the old one
(`superseded_permit_settles`), although `isPermitActive` refuses that permit. `OwnPermit` is the
condition under which this does not happen.
-/

namespace Zenith.Automations

open Zenith.Accounts Zenith.Quota Zenith.Tables Zenith.Runs WakeAutomationState

/-! ## Runs -/

section Runs

variable (sha256 : List UInt8 → List UInt8)

def wakeStep (state : WakeAutomationState) (op : WakeOp) : WakeAutomationState :=
  (op.step sha256 state).1

theorem sound_step (state : WakeAutomationState) (op : WakeOp) (hs : Sound state.cycles) :
    Sound (wakeStep sha256 state op).cycles :=
  (step_cases sha256 state op).sound hs

variable {state : WakeAutomationState}

theorem sound_run (hs : Sound state.cycles) (ops : List WakeOp) :
    Sound (run (wakeStep sha256) state ops).cycles :=
  run_invariant_of_forall (fun state op => sound_step sha256 state op) hs ops

theorem sound_nil : Sound [] := ⟨List.nodup_nil, fun _ h => by cases h⟩

/-- The permits given to the cycle that now stands in a slot, since its creation: `given` are those
given before the run. A slot that is empty has none. -/
def permitsSince (slot : Slot) :
    WakeAutomationState → List WakePermit → List WakeOp → List WakePermit
  | _, given, [] => given
  | state, given, op :: ops =>
    let state' := wakeStep sha256 state op
    if (cycleAt state'.cycles slot).isSome then
      permitsSince slot state'
        (given ++ (op.step sha256 state).2.issued.filter (·.slot = slot)) ops
    else permitsSince slot state' [] ops

/-- The permits carry the attempts of the cycle, from the first on. -/
def Tallied : Option WakeCycle → List WakePermit → Prop
  | none, permits => permits = []
  | some cycle, permits => permits.map (·.attempt) = List.range' 1 cycle.attemptsStarted

theorem SlotStep.tallied {before after : Option WakeCycle} {issued given : List WakePermit}
    (h : SlotStep before issued after) (hw : ∀ cycle, before = some cycle → cycle.WithinLimit)
    (ht : Tallied before given) :
    Tallied after (if after.isSome then given ++ issued else []) := by
  cases h with
  | absent => rfl
  | created fresh =>
    have hgiven : given = [] := ht
    subst hgiven
    simp [Tallied, fresh]
  | dropped => rfl
  | kept hk =>
    simp only [Tallied, Option.isSome_some, if_true, List.append_nil, hk.attemptsStarted]
    exact ht
  | @claimed cycle after permit hc =>
    simp only [Tallied] at ht
    have hsucc := hc.attempts_succ (hw cycle rfl)
    simp only [Tallied, Option.isSome_some, if_true, List.map_append, ht, List.map_singleton,
      hc.attempt, hsucc, List.range'_1_concat, Nat.add_comm]

theorem tallied_run (slot : Slot) (ops : List WakeOp)
    (given : List WakePermit) (hs : Sound state.cycles)
    (ht : Tallied (cycleAt state.cycles slot) given) :
    Tallied (cycleAt (run (wakeStep sha256) state ops).cycles slot)
      (permitsSince sha256 slot state given ops) := by
  induction ops generalizing state given with
  | nil => exact ht
  | cons op ops ih =>
    have hstep : SlotStep (cycleAt state.cycles slot)
        ((op.step sha256 state).2.issued.filter (·.slot = slot))
        (cycleAt (wakeStep sha256 state op).cycles slot) :=
      (step_cases sha256 state op).slotStep hs slot
    have hnext := hstep.tallied (fun cycle hc => hs.limits cycle (mem_of_cycleAt hc).1) ht
    simp only [run_cons, permitsSince]
    split
    case isTrue hsome =>
      rw [if_pos hsome] at hnext
      exact ih _ (sound_step sha256 state op hs) hnext
    case isFalse hnone =>
      rw [if_neg hnone] at hnext
      exact ih _ (sound_step sha256 state op hs) hnext

/-- Of permits with the attempts `1, .., n`, at most one carries a given attempt. -/
theorem one_active {permits : List WakePermit} {n : Nat}
    (ht : permits.map (·.attempt) = List.range' 1 n)
    (hactive : ∀ permit ∈ permits, state.isPermitActive permit = true → permit.attempt = n) :
    (permits.filter state.isPermitActive).length ≤ 1 := by
  have hcount : (permits.map (·.attempt)).count n ≤ 1 := by
    rw [ht]
    exact List.nodup_iff_count_le_one.mp List.nodup_range' n
  have hle : permits.countP state.isPermitActive ≤ permits.countP (fun permit => permit.attempt == n) := by
    refine List.countP_mono_left fun permit hp ha => ?_
    simpa using hactive permit hp ha
  rw [← List.countP_eq_length_filter]
  refine hle.trans ?_
  rwa [List.count, List.countP_map] at hcount

variable {permit : WakePermit} {cycle : WakeCycle}

/-- An active permit carries the number of attempts its cycle has started. -/
theorem Sound.attempt_of_active (hs : Sound state.cycles)
    (hc : cycle ∈ state.cycles)
    (hslot : permit.slot = cycle.slot) (ha : state.isPermitActive permit = true) :
    permit.attempt = cycle.attemptsStarted := by
  obtain ⟨other, hother, hmatch⟩ := List.any_eq_true.mp ha
  simp only [Bool.and_eq_true] at hmatch
  have hsame : other.slot = cycle.slot := (WakeCycle.same_iff.mp hmatch.2).trans hslot
  rw [← List.inj_on_of_nodup_map hs.unique hother hc hsame]
  exact (WakeCycle.awaits_iff.mp hmatch.1.1).2.2.symm

theorem slot_of_permitsSince (slot : Slot) (ops : List WakeOp) (state : WakeAutomationState)
    (given : List WakePermit) (hg : ∀ permit ∈ given, permit.slot = slot) :
    ∀ permit ∈ permitsSince sha256 slot state given ops, permit.slot = slot := by
  induction ops generalizing state given with
  | nil => exact hg
  | cons op ops ih =>
    simp only [permitsSince]
    split
    case isTrue =>
      refine ih _ _ fun permit hp => ?_
      rcases List.mem_append.mp hp with hp | hp
      · exact hg permit hp
      · simpa using (List.mem_filter.mp hp).2
    case isFalse => exact ih _ _ fun permit hp => by cases hp

/-- The slot is occupied after every operation of the run. -/
def Lives (slot : Slot) : WakeAutomationState → List WakeOp → Prop
  | _, [] => True
  | state, op :: ops =>
    (cycleAt (wakeStep sha256 state op).cycles slot).isSome ∧ Lives slot (wakeStep sha256 state op) ops

/-- The permits a run gives for a slot. -/
def issuedTo (slot : Slot) (state : WakeAutomationState) (ops : List WakeOp) : List WakePermit :=
  ((runOut (fun state op => WakeOp.step sha256 state op) state ops).2.flatMap WakeAnswer.issued).filter
    (·.slot = slot)

theorem issuedTo_cons (slot : Slot) (state : WakeAutomationState) (op : WakeOp) (ops : List WakeOp) :
    issuedTo sha256 slot state (op :: ops) =
      (op.step sha256 state).2.issued.filter (·.slot = slot) ++
        issuedTo sha256 slot (wakeStep sha256 state op) ops := by
  simp [issuedTo, wakeStep]

/-- A completed cycle gives no permit as long as it stands in its slot. -/
theorem issuedTo_of_completed (slot : Slot) (ops : List WakeOp)
    (hs : Sound state.cycles)
    (hc : ∀ cycle, cycleAt state.cycles slot = some cycle → cycle.status = .completed)
    (hlive : (cycleAt state.cycles slot).isSome) (hl : Lives sha256 slot state ops) :
    issuedTo sha256 slot state ops = [] := by
  induction ops generalizing state with
  | nil => rfl
  | cons op ops ih =>
    obtain ⟨hsome, hlives⟩ := hl
    have hsound := sound_step sha256 state op hs
    have hstep := (step_cases sha256 state op).slotStep hs slot
    rw [issuedTo_cons]
    change (cycleAt (op.step sha256 state).1.cycles slot).isSome at hsome
    have hnext := ih hsound
    simp only [wakeStep] at hnext hlives ⊢
    revert hstep
    generalize hbefore : cycleAt state.cycles slot = before at *
    generalize hafter : cycleAt (op.step sha256 state).1.cycles slot = after at *
    generalize (op.step sha256 state).2.issued.filter (·.slot = slot) = issued
    intro hstep
    cases hstep with
    | absent => cases hlive
    | created => cases hlive
    | dropped => cases hsome
    | kept hk =>
      refine hnext (fun cycle heq => ?_) rfl hlives
      cases heq
      exact hk.completed (hc _ rfl)
    | claimed hclaim => exact absurd (hclaim.pending.symm.trans (hc _ rfl)) (by decide)

/-! ## Operations that close a cycle -/

/-- The operation closes the cycle in the slot: it confirms its attempt, cancels it, or reports
that the owner has used the account. -/
def Closes (state : WakeAutomationState) (slot : Slot) : WakeOp → Prop
  | .evaluate task account transition lastNaturalUseAtMs policy nowMs =>
    slot = (account.id, transition.windowKind, transition.fingerprint) ∧
      (state.evaluate sha256 task account transition lastNaturalUseAtMs policy nowMs).2 =
        .skipped .skippedAlreadyStarted
  | .complete permit completion =>
    permit.slot = slot ∧ completion.outcome = .confirmed ∧
      (state.complete sha256 permit completion).2 = true
  | .removePendingForTask taskId _ => ∃ cycle ∈ state.cycles, cycle.slot = slot ∧ cycle.taskId = taskId
  | .removePendingForAccount accountId _ => slot.1 = accountId
  | .markNaturalUseForAccount accountId _ => slot.1 = accountId
  | .restart => slot.2.1 ≠ .primary ∧ ∃ state', state.fromState sha256 = .ok state'
  | .claimDue .. | .claimDueAutomatic .. | .claimDueConfirmations .. => False

/-- A permit is completed only while the cycle that waits under its key, at its attempt, is the one
it was given for: of the same task, account, window and fingerprint. -/
def OwnPermit (state : WakeAutomationState) : WakeOp → Prop
  | .complete permit _ => ∀ cycle ∈ state.cycles, cycle.awaits permit = true →
      cycle.taskId = permit.taskId ∧ cycle.slot = permit.slot
  | _ => True

theorem completed_of_finishMatching {matching : WakeCycle → Bool}
    {entry : WakeCycle → WakeHistory} {atMs : Nat}
    (h : cycle ∈ (state.finishMatching matching entry atMs).1.cycles)
    (hm : ∀ before ∈ state.cycles, before.slot = cycle.slot → matching before = true) :
    cycle.status = .completed := by
  simp only [finishMatching, cycles_pushHistories] at h
  obtain ⟨before, hbefore, rfl⟩ := List.mem_map.mp h
  by_cases hopen : (decide (before.status ≠ .completed) && matching before) = true
  · rw [if_pos hopen]
    rfl
  · rw [if_neg hopen] at hm ⊢
    simpa [hm before hbefore rfl] using hopen

theorem mem_replaceFirst {found : WakeCycle → Bool} {f : WakeCycle → WakeCycle}
    {cycles : List WakeCycle} {before : WakeCycle} (h : cycles.find? found = some before) :
    f before ∈ replaceFirst found f cycles := by
  induction cycles with
  | nil => cases h
  | cons cycle cycles ih =>
    unfold replaceFirst
    by_cases hfound : found cycle = true
    · rw [List.find?_cons_of_pos hfound] at h
      rw [if_pos hfound, Option.some.inj h]
      exact List.mem_cons_self
    · rw [List.find?_cons_of_neg hfound] at h
      rw [if_neg hfound]
      exact List.mem_cons_of_mem _ (ih h)

/-- In a sound list, what stands in the slot of a member is that member. -/
theorem Sound.completed_at {cycles : List WakeCycle} (hs : Sound cycles) {slot : Slot}
    {member cycle : WakeCycle} (hmem : member ∈ cycles) (hslot : member.slot = slot)
    (hdone : member.status = .completed) (hat : cycleAt cycles slot = some cycle) :
    cycle.status = .completed := by
  have hmember := hs.cycleAt_of_mem hmem
  rw [hslot, hat] at hmember
  rw [Option.some.inj hmember]
  exact hdone

theorem completed_of_complete (hs : Sound state.cycles)
    {completion : WakeCompletion}
    (hown : OwnPermit state (.complete permit completion))
    (hconfirmed : completion.outcome = .confirmed)
    (hfound : (state.complete sha256 permit completion).2 = true)
    (hat : cycleAt (state.complete sha256 permit completion).1.cycles permit.slot = some cycle) :
    cycle.status = .completed := by
  have hsound := sound_step sha256 state (.complete permit completion) hs
  simp only [wakeStep, WakeOp.step, Prod.map_fst, id] at hsound
  revert hfound hat hsound
  unfold complete
  split
  case h_1 =>
    intro hfound
    cases hfound
  case h_2 before hfind =>
    intro _ hat hsound
    have hawaits := List.find?_some hfind
    have hslot := (hown before (List.mem_of_find?_eq_some hfind) hawaits).2
    refine hsound.completed_at (mem_replaceFirst hfind) ?_ ?_ hat
    · rw [(keeps_settle sha256 (WakeCycle.awaits_iff.mp hawaits).2.1 _ _).slot]
      exact hslot
    · simp [WakeCycle.settle, hconfirmed, WakeCycle.finish]

/-- An evaluation that reports natural use leaves the cycle of the transition completed. -/
theorem completed_of_evaluate (hs : Sound state.cycles)
    {task : WakeTask} {account : AccountRecord} {transition : QuotaTransition}
    {lastNaturalUseAtMs : Option Nat} {policy : WakeAdapterPolicy} {nowMs : Nat}
    (hused : (state.evaluate sha256 task account transition lastNaturalUseAtMs policy nowMs).2 =
      .skipped .skippedAlreadyStarted)
    (hat : cycleAt
      (state.evaluate sha256 task account transition lastNaturalUseAtMs policy nowMs).1.cycles
      (account.id, transition.windowKind, transition.fingerprint) = some cycle) :
    cycle.status = .completed := by
  have hsound := sound_step sha256 state
    (.evaluate task account transition lastNaturalUseAtMs policy nowMs) hs
  simp only [wakeStep, WakeOp.step, Prod.map_fst, id] at hsound
  revert hused hat hsound
  unfold evaluate
  split
  case h_1 => intro hused; cases hused
  split
  case isTrue => intro hused; cases hused
  split
  case isTrue => intro hused; cases hused
  dsimp only
  split
  case isTrue =>
    unfold completeByNaturalUse
    dsimp only
    split
    case h_1 before hfind =>
      split
      case isTrue => intro hused; cases hused
      case isFalse =>
        intro _ hat hsound
        have hsame := List.find?_some hfind
        exact hsound.completed_at (mem_replaceFirst hfind) (WakeCycle.same_iff.mp hsame) rfl hat
    case h_2 =>
      split
      case h_1 => intro hused; cases hused
      case h_2 hreserve =>
        intro _ hat hsound
        obtain ⟨kept, -, hcycles⟩ := cycles_of_reserveCycle hreserve
        rw [cycles_pushHistory, hcycles] at hsound hat
        exact hsound.completed_at (List.mem_append_right _ List.mem_cons_self) rfl rfl hat
  split
  case isTrue => intro hused; cases hused
  split
  case h_1 => intro hused; cases hused
  split
  case h_1 => intro hused; cases hused
  case h_2 => intro hused; cases hused

/-- After an operation that closes it, the cycle in the slot is completed. -/
theorem completed_of_closes (hs : Sound state.cycles) {slot : Slot}
    {op : WakeOp} (hown : OwnPermit state op) (hc : Closes sha256 state slot op)
    (hat : cycleAt (wakeStep sha256 state op).cycles slot = some cycle) :
    cycle.status = .completed := by
  obtain ⟨hmem, hslot⟩ := mem_of_cycleAt hat
  cases op with
  | evaluate task account transition lastNaturalUseAtMs policy nowMs =>
    obtain ⟨rfl, hused⟩ := hc
    rw [wakeStep, WakeOp.step, Prod.map_fst, id_eq] at hat
    exact completed_of_evaluate sha256 hs hused hat
  | claimDue => exact hc.elim
  | claimDueAutomatic => exact hc.elim
  | claimDueConfirmations => exact hc.elim
  | complete permit completion =>
    obtain ⟨rfl, hconfirmed, hfound⟩ := hc
    exact completed_of_complete sha256 hs hown hconfirmed hfound hat
  | removePendingForTask taskId completedAtMs =>
    obtain ⟨holder, hholder, hholderSlot, htask⟩ := hc
    refine completed_of_finishMatching hmem fun before hbefore hsame => ?_
    have heq : before = holder :=
      List.inj_on_of_nodup_map hs.unique hbefore hholder
        (hsame.trans (hslot.trans hholderSlot.symm))
    simp [heq, htask]
  | removePendingForAccount accountId completedAtMs =>
    refine completed_of_finishMatching hmem fun before _ hsame => ?_
    have hfirst : before.slot.1 = accountId := by rw [hsame, hslot]; exact hc
    exact decide_eq_true hfirst
  | markNaturalUseForAccount accountId usedAtMs =>
    refine completed_of_finishMatching hmem fun before _ hsame => ?_
    have hfirst : before.slot.1 = accountId := by rw [hsame, hslot]; exact hc
    exact decide_eq_true hfirst
  | restart =>
    obtain ⟨hkind, state', hstate⟩ := hc
    simp only [wakeStep, WakeOp.step, hstate] at hmem
    unfold fromState at hstate
    split at hstate
    case isTrue => cases hstate
    case isFalse =>
      cases hstate
      refine completed_of_finishMatching hmem fun before _ hsame => ?_
      have hsecond : before.slot.2.1 ≠ .primary := by rw [hsame, hslot]; exact hkind
      exact decide_eq_true hsecond

/-- A permit that is not active is refused, when it is not taken for another's. -/
theorem complete_of_inactive {completion : WakeCompletion} (hown : OwnPermit state (.complete permit completion))
    (hinactive : state.isPermitActive permit = false) :
    state.complete sha256 permit completion = (state, false) := by
  have hnone : state.cycles.find? (·.awaits permit) = none := by
    refine List.find?_eq_none.mpr fun cycle hcycle hawaits => ?_
    obtain ⟨htask, hslot⟩ := hown cycle hcycle hawaits
    refine absurd ?_ (Bool.eq_false_iff.mp hinactive)
    refine List.any_eq_true.mpr ⟨cycle, hcycle, ?_⟩
    simp [hawaits, htask, WakeCycle.same_iff.mpr hslot]
  simp [complete, hnone]

/-! ## Attempt safety -/

/-- In every run of the coordinator whose completions bring their own permits: no two cycles share
a slot; the permits given to a cycle since its creation carry the attempts `1, 2, ..`, at most as
many as it may make, which is one or two, and at most one of them is active; once a cycle was
confirmed, cancelled or naturally used it gives no further permit; and an inactive permit is refused
and changes nothing. -/
theorem wake_attempts_safe {maxCycles maxHistory : Nat} {start : WakeAutomationState}
    (hnew : WakeAutomationState.new maxCycles maxHistory = .ok start) (ops : List WakeOp)
    (hown : StepsMeet (wakeStep sha256) OwnPermit start ops) :
    ((run (wakeStep sha256) start ops).cycles.map (·.slot)).Nodup ∧
    (∀ cycle ∈ (run (wakeStep sha256) start ops).cycles,
      (permitsSince sha256 cycle.slot start [] ops).map (·.attempt) =
        List.range' 1 cycle.attemptsStarted ∧
      cycle.attemptsStarted ≤ cycle.maxAttempts ∧
      (cycle.maxAttempts = 1 ∨ cycle.maxAttempts = 2) ∧
      ((permitsSince sha256 cycle.slot start [] ops).filter
        (run (wakeStep sha256) start ops).isPermitActive).length ≤ 1) ∧
    (∀ before op during, ops = before ++ op :: during → ∀ slot,
      Closes sha256 (run (wakeStep sha256) start before) slot op →
      (cycleAt (run (wakeStep sha256) start (before ++ [op])).cycles slot).isSome →
      Lives sha256 slot (run (wakeStep sha256) start (before ++ [op])) during →
      issuedTo sha256 slot (run (wakeStep sha256) start (before ++ [op])) during = []) ∧
    (∀ permit completion,
      OwnPermit (run (wakeStep sha256) start ops) (.complete permit completion) →
      (run (wakeStep sha256) start ops).isPermitActive permit = false →
      (run (wakeStep sha256) start ops).complete sha256 permit completion =
        (run (wakeStep sha256) start ops, false)) := by
  have hstart : start.cycles = [] := by
    unfold WakeAutomationState.new at hnew
    split at hnew
    case isTrue => cases hnew
    case isFalse =>
      cases hnew
      rfl
  have hs₀ : Sound start.cycles := hstart ▸ sound_nil
  have hs := sound_run sha256 hs₀ ops
  refine ⟨hs.unique, fun cycle hcycle => ?_, ?_, fun permit completion howned hinactive =>
    complete_of_inactive sha256 howned hinactive⟩
  · have hempty : Tallied (cycleAt start.cycles cycle.slot) [] := by
      rw [hstart]
      rfl
    have htally := tallied_run sha256 cycle.slot ops [] hs₀ hempty
    rw [hs.cycleAt_of_mem hcycle] at htally
    have hslots := slot_of_permitsSince sha256 cycle.slot ops start [] (fun _ h => by cases h)
    have hlimit := hs.limits cycle hcycle
    refine ⟨htally, hlimit.2, ?_, one_active htally fun permit hp hactive => ?_⟩
    · have hmax : cycle.maxAttempts ≤ 2 := hlimit.1.2
      have hmin := hlimit.1.1
      interval_cases cycle.maxAttempts <;> simp
    · exact hs.attempt_of_active hcycle (hslots permit hp) hactive
  · rintro before op during rfl slot hcloses hsome hlives
    have hsb := sound_run sha256 hs₀ before
    have hsa := sound_run sha256 hs₀ (before ++ [op])
    have hop := (StepsMeet.append.mp hown).2.1
    refine issuedTo_of_completed sha256 slot during hsa (fun cycle hat => ?_) hsome hlives
    rw [run_append] at hat
    exact completed_of_closes sha256 hsb hop hcloses hat

end Runs

/-! ## A superseded permit -/

/-- SHA-256 on the two inputs that the runs below hash. -/
def sampleSha256 (input : List UInt8) : List UInt8 :=
  if input = Bytes.utf8 "acct\x00Primary\x00cycle-1" then
    [154, 220, 8, 209, 228, 52, 15, 181, 171, 238, 25, 243, 127, 46, 151, 11,
      155, 210, 184, 196, 236, 41, 241, 106, 62, 144, 46, 101, 77, 170, 9, 242]
  else if input = Bytes.utf8 "acct\x00Primary\x00cycle-2" then
    [120, 136, 8, 231, 24, 119, 202, 124, 199, 68, 238, 216, 209, 20, 155, 230,
      46, 83, 155, 50, 202, 90, 7, 134, 74, 73, 129, 154, 91, 30, 122, 231]
  else []

def sampleAccount : AccountRecord :=
  { id := "acct", authState := .active, health := .healthy, enabled := true, inPool := true }

def sampleTask (id : String) : WakeTask :=
  { id
    name := id
    enabled := true
    accountSelector := .allEligible
    windowKinds := {.primary}
    modelPolicy := .lightestSupported
    trigger := .quotaFull
    fallbackSchedule := none
    executionPolicy := .automatic
    jitterSeconds := 0
    maxAttemptsPerCycle := 2 }

def samplePolicy : WakeAdapterPolicy :=
  { windowsRequiringActivity := {.primary}
    models := [{ id := "mini", lightnessRank := 1, wakeCapable := true }]
    verificationDelayMs := 1000
    outputTokenCap := 16 }

/-- The task sees the account's window become full under the fingerprint. -/
def sampleEvaluate (task fingerprint : String) (nowMs : Nat) : WakeOp :=
  .evaluate (sampleTask task) sampleAccount
    { windowKind := .primary, fingerprint, transitionedAtMs := 0 } none samplePolicy nowMs

def sampleStart : WakeAutomationState := { maxCycles := 1, maxHistory := 8 }

/-- The permit that the first task is given for the first cycle. -/
def samplePermit : WakePermit :=
  { cycleKey := "9adc08d1e4340fb5abee19f37f2e970b9bd2b8c4ec29f16a3e902e654daa09f2"
    taskId := "first"
    accountId := "acct"
    windowKind := .primary
    transitionFingerprint := "cycle-1"
    modelId := "mini"
    trigger := .quotaFull
    requiresConfirmation := false
    verificationDelayMs := 1000
    outputTokenCap := 16
    attempt := 1
    dueAtMs := 10
    reservedAtMs := 20
    request :=
      { accountId := "acct", modelId := "mini", windowKind := .primary, outputTokenCap := 16 }
    verification := { windowKind := .primary, baselineWindow := none, verifyAfterMs := 1000 } }

def sampleOps : List WakeOp :=
  [sampleEvaluate "first" "cycle-1" 10, .claimDue 20 1,
    .complete samplePermit { outcome := .unconfirmed, completedAtMs := 30 }, .restart,
    .claimDue 40 1]

theorem wake_attempts_safe_sample :
    StepsMeet (wakeStep sampleSha256) OwnPermit sampleStart sampleOps ∧
      ((run (wakeStep sampleSha256) sampleStart sampleOps).cycles.map (·.slot)).Nodup := by
  have hown : StepsMeet (wakeStep sampleSha256) OwnPermit sampleStart sampleOps :=
    ⟨trivial, trivial, by
      show ∀ cycle ∈ _, _
      decide +kernel, trivial, trivial, trivial⟩
  have hnew : WakeAutomationState.new 1 8 = .ok sampleStart := rfl
  exact ⟨hown, (wake_attempts_safe sampleSha256 hnew sampleOps hown).1⟩

/-- With room for one cycle, the first task's cycle is cancelled, dropped for another and created
again by the second task. -/
def supersededOps : List WakeOp :=
  [sampleEvaluate "first" "cycle-1" 10, .claimDue 20 1, .removePendingForTask "first" 30,
    sampleEvaluate "second" "cycle-2" 40, .removePendingForTask "second" 50,
    sampleEvaluate "second" "cycle-1" 60, .claimDue 70 1]

/-- The first task's permit is not active any more, and yet it settles the second task's cycle. -/
theorem superseded_permit_settles :
    samplePermit ∈ issuedTo sampleSha256 ("acct", .primary, "cycle-1") sampleStart supersededOps ∧
    (run (wakeStep sampleSha256) sampleStart supersededOps).isPermitActive samplePermit = false ∧
    ((run (wakeStep sampleSha256) sampleStart supersededOps).complete sampleSha256 samplePermit
      { outcome := .confirmed, completedAtMs := 80 }).2 = true := by
  decide +kernel

end Zenith.Automations
