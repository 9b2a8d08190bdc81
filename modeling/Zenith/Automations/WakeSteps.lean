import Mathlib
import Zenith.Automations.QuotaWake

/-!
# What an operation does to the cycles

The identity of a cycle is its `Slot`: the account, the window and the fingerprint of the
transition. `step_cases` is the inversion of the operations of the coordinator: every cycle stays in
its place and either keeps its attempts or gives one permit (`Evolves`), or a new cycle is appended,
with a completed one possibly dropped for it. `Outcome.slotStep` reads this for one slot, and
`Outcome.sound` says that no two cycles share a slot and none exceeds its attempts.
-/

namespace Zenith.Automations

open Zenith.Accounts Zenith.Quota Zenith.Tables

/-! ## Slots -/

abbrev Slot := String × QuotaWindowKind × String

def WakeCycle.slot (cycle : WakeCycle) : Slot :=
  (cycle.accountId, cycle.windowKind, cycle.transitionFingerprint)

def WakePermit.slot (permit : WakePermit) : Slot :=
  (permit.accountId, permit.windowKind, permit.transitionFingerprint)

variable {cycle : WakeCycle}

theorem WakeCycle.same_iff {accountId : String} {kind : QuotaWindowKind}
    {fingerprint : String} :
    cycle.same accountId kind fingerprint = true ↔ cycle.slot = (accountId, kind, fingerprint) := by
  simp [WakeCycle.same, WakeCycle.slot, and_assoc]

variable {permit : WakePermit}

theorem WakeCycle.awaits_iff :
    cycle.awaits permit = true ↔ cycle.key = permit.cycleKey ∧ cycle.status = .inFlight ∧
      cycle.attemptsStarted = permit.attempt := by
  simp [WakeCycle.awaits, and_assoc]

/-- The cycle that stands in a slot. -/
def cycleAt (cycles : List WakeCycle) (slot : Slot) : Option WakeCycle :=
  cycles.find? (·.slot = slot)

/-- The cycle may make one or two attempts and has started no more than that. -/
def WakeCycle.WithinLimit (cycle : WakeCycle) : Prop :=
  (1 ≤ cycle.maxAttempts ∧ cycle.maxAttempts ≤ maxWakeAttempts) ∧
    cycle.attemptsStarted ≤ cycle.maxAttempts

/-- No two cycles share a slot, and every cycle is within its limit. -/
structure Sound (cycles : List WakeCycle) : Prop where
  unique : (cycles.map (·.slot)).Nodup
  limits : ∀ cycle ∈ cycles, cycle.WithinLimit

/-! ## What an operation does to one cycle -/

/-- `after` is the cycle `before`, with the attempts it had. It is not brought back when it was
completed, and not in flight unless it was. -/
structure Keeps (before after : WakeCycle) : Prop where
  key : after.key = before.key
  taskId : after.taskId = before.taskId
  slot : after.slot = before.slot
  maxAttempts : after.maxAttempts = before.maxAttempts
  attemptsStarted : after.attemptsStarted = before.attemptsStarted
  completed : before.status = .completed → after.status = .completed
  inFlight : after.status = .inFlight → before.status = .inFlight

/-- `after` is the pending cycle `before` with one more attempt started, for which `permit` was
given. -/
structure Claims (before : WakeCycle) (permit : WakePermit) (after : WakeCycle) : Prop where
  key : after.key = before.key
  taskId : after.taskId = before.taskId
  slot : after.slot = before.slot
  maxAttempts : after.maxAttempts = before.maxAttempts
  pending : before.status = .pending
  room : before.attemptsStarted < before.maxAttempts
  attemptsStarted : after.attemptsStarted = satAdd 8 before.attemptsStarted 1
  attempt : permit.attempt = after.attemptsStarted
  permitSlot : permit.slot = before.slot

theorem Keeps.refl (cycle : WakeCycle) : Keeps cycle cycle :=
  ⟨rfl, rfl, rfl, rfl, rfl, id, id⟩

theorem Keeps.trans {a b c : WakeCycle} (h : Keeps a b) (h' : Keeps b c) : Keeps a c where
  key := h'.key.trans h.key
  taskId := h'.taskId.trans h.taskId
  slot := h'.slot.trans h.slot
  maxAttempts := h'.maxAttempts.trans h.maxAttempts
  attemptsStarted := h'.attemptsStarted.trans h.attemptsStarted
  completed := fun hc => h'.completed (h.completed hc)
  inFlight := fun hf => h.inFlight (h'.inFlight hf)

theorem keeps_finish (cycle : WakeCycle) (nowMs : Nat) : Keeps cycle (cycle.finish nowMs) :=
  ⟨rfl, rfl, rfl, rfl, rfl, fun _ => rfl, fun h => by cases h⟩

theorem keeps_recover (sha256 : List UInt8 → List UInt8) (cycle : WakeCycle) :
    Keeps cycle (cycle.recover sha256) := by
  unfold WakeCycle.recover
  split
  case isTrue hf =>
    split
    case isTrue => exact ⟨rfl, rfl, rfl, rfl, rfl, fun hc => absurd (hf.symm.trans hc) (by decide),
      fun h => by cases h⟩
    case isFalse => exact keeps_finish _ _
  case isFalse => exact Keeps.refl _

theorem keeps_settle (sha256 : List UInt8 → List UInt8)
    (hf : cycle.status = .inFlight) (outcome : WakeCompletionOutcome) (completedAtMs : Nat) :
    Keeps cycle (cycle.settle sha256 outcome completedAtMs) := by
  unfold WakeCycle.settle
  split
  case isTrue => exact keeps_finish _ _
  case isFalse => exact ⟨rfl, rfl, rfl, rfl, rfl, fun hc => absurd (hf.symm.trans hc) (by decide),
    fun h => by cases h⟩

theorem claims_of_claim? {cycle after : WakeCycle} {nowMs : Nat}
    {mode : WakeClaimMode} (h : cycle.claim? nowMs mode = some (after, permit)) :
    Claims cycle permit after := by
  unfold WakeCycle.claim? at h
  split at h
  case isTrue => cases h
  case isFalse hopen =>
    split at h
    case h_1 =>
      cases h
      simp only [Bool.or_eq_true, not_or, decide_eq_true_eq, not_not, not_lt, not_le] at hopen
      exact ⟨rfl, rfl, rfl, rfl, hopen.1.1.1, hopen.1.2, rfl, rfl, rfl⟩
    case h_2 => cases h

/-! ## What an operation does to all cycles -/

/-- Every cycle stays in its place and keeps its attempts or gives one of the permits `issued`. -/
inductive Evolves : List WakePermit → List WakeCycle → List WakeCycle → Prop
  | nil : Evolves [] [] []
  | keep {issued cycles cycles'} {before after : WakeCycle} :
      Keeps before after → Evolves issued cycles cycles' →
      Evolves issued (before :: cycles) (after :: cycles')
  | claim {issued cycles cycles'} {before after : WakeCycle} {permit : WakePermit} :
      Claims before permit after → Evolves issued cycles cycles' →
      Evolves (permit :: issued) (before :: cycles) (after :: cycles')

namespace Evolves

theorem refl (cycles : List WakeCycle) : Evolves [] cycles cycles := by
  induction cycles with
  | nil => exact nil
  | cons cycle cycles ih => exact keep (Keeps.refl cycle) ih

variable {f : WakeCycle → WakeCycle}

theorem map (hf : ∀ cycle, Keeps cycle (f cycle))
    (cycles : List WakeCycle) : Evolves [] cycles (cycles.map f) := by
  induction cycles with
  | nil => exact nil
  | cons cycle cycles ih => exact keep (hf cycle) ih

theorem replaceFirst {found : WakeCycle → Bool}
    (hf : ∀ cycle, found cycle = true → Keeps cycle (f cycle)) (cycles : List WakeCycle) :
    Evolves [] cycles (WakeAutomationState.replaceFirst found f cycles) := by
  induction cycles with
  | nil => exact nil
  | cons cycle cycles ih =>
    unfold WakeAutomationState.replaceFirst
    split
    case isTrue h => exact keep (hf cycle h) (refl cycles)
    case isFalse => exact keep (Keeps.refl cycle) ih

theorem claimLoop (nowMs : Nat) (mode : WakeClaimMode) (budget : Nat) (cycles : List WakeCycle) :
    Evolves (WakeAutomationState.claimDueMatching.claimLoop nowMs mode budget cycles).2 cycles
      (WakeAutomationState.claimDueMatching.claimLoop nowMs mode budget cycles).1 := by
  induction cycles generalizing budget with
  | nil => cases budget <;> exact nil
  | cons cycle cycles ih =>
    cases budget with
    | zero => exact refl _
    | succ budget =>
      unfold WakeAutomationState.claimDueMatching.claimLoop
      cases hclaim : cycle.claim? nowMs mode with
      | none => exact keep (Keeps.refl cycle) (ih (budget + 1))
      | some claimed => exact claim (claims_of_claim? hclaim) (ih budget)

theorem trans {cycles cycles' cycles'' : List WakeCycle} (h : Evolves [] cycles cycles')
    (h' : Evolves [] cycles' cycles'') : Evolves [] cycles cycles'' := by
  induction cycles generalizing cycles' cycles'' with
  | nil =>
    cases h
    cases h'
    exact nil
  | cons cycle cycles ih =>
    cases h with
    | keep hk h =>
      cases h' with
      | keep hk' h' => exact keep (hk.trans hk') (ih h h')

theorem map_slot {issued cycles cycles'} (h : Evolves issued cycles cycles') :
    cycles'.map (·.slot) = cycles.map (·.slot) := by
  induction h with
  | nil => rfl
  | keep hk _ ih => simp [hk.slot, ih]
  | claim hc _ ih => simp [hc.slot, ih]

theorem slot_of_issued {issued cycles cycles'} (h : Evolves issued cycles cycles')
    {permit : WakePermit} (hp : permit ∈ issued) : permit.slot ∈ cycles.map (·.slot) := by
  induction h with
  | nil => cases hp
  | keep _ _ ih => exact List.mem_cons_of_mem _ (ih hp)
  | claim hc _ ih =>
    rcases List.mem_cons.mp hp with rfl | hp
    · simp [hc.permitSlot]
    · exact List.mem_cons_of_mem _ (ih hp)

end Evolves

/-- What one operation does: the cycles stay in place, or a fresh cycle is appended in an empty
slot, the oldest completed one possibly making room for it. -/
inductive Outcome (state : WakeAutomationState) : List WakePermit → List WakeCycle → Prop
  | evolved {issued cycles} : Evolves issued state.cycles cycles → Outcome state issued cycles
  | created {cycle : WakeCycle} {kept : List WakeCycle}
      (room : kept = state.cycles ∨ kept = state.cycles.eraseP fun cycle => cycle.status = .completed)
      (empty : cycle.slot ∉ state.cycles.map (·.slot))
      (fresh : cycle.attemptsStarted = 0)
      (limit : 1 ≤ cycle.maxAttempts ∧ cycle.maxAttempts ≤ maxWakeAttempts) :
      Outcome state [] (kept ++ [cycle])

namespace WakeAutomationState

@[simp] theorem cycles_pushHistory (state : WakeAutomationState) (entry : WakeHistory) :
    (state.pushHistory entry).cycles = state.cycles := rfl

@[simp] theorem cycles_pushHistories (state : WakeAutomationState) (entries : List WakeHistory) :
    (state.pushHistories entries).cycles = state.cycles := by
  unfold pushHistories
  induction entries generalizing state with
  | nil => rfl
  | cons entry entries ih => exact ih (state.pushHistory entry)

theorem outcome_refl (state : WakeAutomationState) : Outcome state [] state.cycles :=
  .evolved (.refl _)

theorem keeps_finishIf (open? : WakeCycle → Bool) (atMs : Nat) (cycle : WakeCycle) :
    Keeps cycle (if open? cycle then cycle.finish atMs else cycle) := by
  split
  case isTrue => exact keeps_finish _ _
  case isFalse => exact Keeps.refl _

theorem evolves_finishMatching (state : WakeAutomationState) (matching : WakeCycle → Bool)
    (entry : WakeCycle → WakeHistory) (atMs : Nat) :
    Evolves [] state.cycles (state.finishMatching matching entry atMs).1.cycles := by
  simp only [finishMatching, cycles_pushHistories]
  exact Evolves.map (keeps_finishIf _ atMs) state.cycles

variable {state state' : WakeAutomationState}

theorem evolves_fromState (sha256 : List UInt8 → List UInt8)
    (h : state.fromState sha256 = .ok state') : Evolves [] state.cycles state'.cycles := by
  unfold fromState at h
  split at h
  case isTrue => cases h
  case isFalse =>
    cases h
    refine (Evolves.map (keeps_recover sha256) state.cycles).trans ?_
    exact evolves_finishMatching (state.recovered sha256) _ _ 0

theorem evolves_complete (sha256 : List UInt8 → List UInt8) (state : WakeAutomationState)
    (permit : WakePermit) (completion : WakeCompletion) :
    Evolves [] state.cycles (state.complete sha256 permit completion).1.cycles := by
  unfold complete
  split
  case h_1 => exact .refl _
  case h_2 =>
    refine Evolves.replaceFirst (fun cycle h => ?_) state.cycles
    exact keeps_settle sha256 (WakeCycle.awaits_iff.mp h).2.1 _ _

/-- A reserved cycle is appended to the cycles, less at most the oldest completed one. -/
theorem cycles_of_reserveCycle {cycle : WakeCycle}
    (h : state.reserveCycle cycle = some state') :
    ∃ kept, (kept = state.cycles ∨ kept = state.cycles.eraseP fun cycle => cycle.status = .completed) ∧
      state'.cycles = kept ++ [cycle] := by
  unfold reserveCycle at h
  split at h
  case isTrue =>
    split at h
    case isTrue =>
      cases h
      exact ⟨_, .inr rfl, rfl⟩
    case isFalse => cases h
  case isFalse =>
    cases h
    exact ⟨_, .inl rfl, rfl⟩

theorem outcome_reserve {cycle : WakeCycle}
    (h : state.reserveCycle cycle = some state') (empty : cycle.slot ∉ state.cycles.map (·.slot))
    (fresh : cycle.attemptsStarted = 0)
    (limit : 1 ≤ cycle.maxAttempts ∧ cycle.maxAttempts ≤ maxWakeAttempts) :
    Outcome state [] state'.cycles := by
  obtain ⟨kept, room, heq⟩ := cycles_of_reserveCycle h
  rw [heq]
  exact .created room empty fresh limit

theorem slot_empty_of_find? {state : WakeAutomationState} {accountId : String}
    {kind : QuotaWindowKind} {fingerprint : String}
    (h : state.cycles.find? (·.same accountId kind fingerprint) = none) :
    (accountId, kind, fingerprint) ∉ state.cycles.map (·.slot) := by
  intro hmem
  obtain ⟨cycle, hcycle, hslot⟩ := List.mem_map.mp hmem
  exact List.find?_eq_none.mp h cycle hcycle (WakeCycle.same_iff.mpr hslot)

theorem outcome_completeByNaturalUse (state : WakeAutomationState) {task : WakeTask}
    (htask : 1 ≤ task.maxAttemptsPerCycle ∧ task.maxAttemptsPerCycle ≤ maxWakeAttempts)
    (account : AccountRecord) (transition : QuotaTransition) (key : String) (nowMs : Nat) :
    Outcome state [] (state.completeByNaturalUse task account transition key nowMs).1.cycles := by
  unfold completeByNaturalUse
  dsimp only
  split
  case h_1 cycle hfind =>
    split
    case isTrue => exact outcome_refl state
    case isFalse =>
      exact .evolved (Evolves.replaceFirst (fun cycle _ => keeps_finish cycle nowMs) state.cycles)
  case h_2 hfind =>
    split
    case h_1 => exact outcome_refl state
    case h_2 state' hreserve =>
      rw [cycles_pushHistory]
      exact outcome_reserve hreserve (slot_empty_of_find? hfind) rfl htask

/-- What a valid task keeps to. -/
theorem WakeTask.checks_of_validate {task : WakeTask} (h : task.validate = .ok ()) :
    isSafeId task.id = true ∧ (1 ≤ task.maxAttemptsPerCycle ∧ task.maxAttemptsPerCycle ≤ maxWakeAttempts) ∧
      task.jitterSeconds ≤ maxWakeJitterSeconds := by
  unfold WakeTask.validate at h
  obtain ⟨hid, h⟩ := ok_of_ite_error h
  obtain ⟨-, h⟩ := ok_of_ite_error h
  obtain ⟨-, h⟩ := ok_of_ite_error h
  obtain ⟨-, h⟩ := ok_of_ite_error h
  obtain ⟨-, h⟩ := ok_of_ite_error h
  obtain ⟨-, h⟩ := ok_of_ite_error h
  obtain ⟨-, h⟩ := ok_of_ite_error h
  obtain ⟨hattempts, h⟩ := ok_of_ite_error h
  obtain ⟨hjitter, -⟩ := ok_of_ite_error h
  simp only [Bool.not_eq_eq_eq_not, Bool.not_true, Bool.and_eq_true, decide_eq_true_eq,
    Bool.not_eq_false] at hid hattempts
  exact ⟨hid, hattempts, Nat.le_of_not_lt hjitter⟩

theorem outcome_evaluate (sha256 : List UInt8 → List UInt8) (state : WakeAutomationState)
    (task : WakeTask) (account : AccountRecord) (transition : QuotaTransition)
    (lastNaturalUseAtMs : Option Nat) (policy : WakeAdapterPolicy) (nowMs : Nat) :
    Outcome state []
      (state.evaluate sha256 task account transition lastNaturalUseAtMs policy nowMs).1.cycles := by
  unfold evaluate
  split
  case h_1 => exact outcome_refl state
  case h_2 hvalid =>
    have htask := (WakeTask.checks_of_validate hvalid).2.1
    split
    case isTrue => exact outcome_refl state
    split
    case isTrue => exact outcome_refl state
    dsimp only
    split
    case isTrue => exact outcome_completeByNaturalUse state htask account transition _ nowMs
    split
    case isTrue => exact outcome_refl state
    case isFalse hduplicate =>
      split
      case h_1 => exact outcome_refl state
      split
      case h_1 => exact outcome_refl state
      case h_2 hreserve =>
        refine outcome_reserve hreserve ?_ rfl htask
        refine slot_empty_of_find? (List.find?_eq_none.mpr fun cycle hcycle hsame => hduplicate ?_)
        exact List.any_eq_true.mpr ⟨cycle, hcycle, hsame⟩

end WakeAutomationState

open WakeAutomationState

/-- The inversion of an operation, from which every invariant below follows. -/
theorem step_cases (sha256 : List UInt8 → List UInt8) (state : WakeAutomationState) (op : WakeOp) :
    Outcome state (op.step sha256 state).2.issued (op.step sha256 state).1.cycles := by
  cases op with
  | evaluate task account transition lastNaturalUseAtMs policy nowMs =>
    rw [WakeOp.step, Prod.map_fst, Prod.map_snd, id_eq]
    exact outcome_evaluate sha256 state task account transition lastNaturalUseAtMs policy nowMs
  | claimDue nowMs maxClaims => exact .evolved (Evolves.claimLoop nowMs .any maxClaims state.cycles)
  | claimDueAutomatic nowMs maxClaims =>
    exact .evolved (Evolves.claimLoop nowMs .automatic maxClaims state.cycles)
  | claimDueConfirmations nowMs maxClaims =>
    exact .evolved (Evolves.claimLoop nowMs .confirmation maxClaims state.cycles)
  | complete permit completion =>
    exact .evolved (evolves_complete sha256 state permit completion)
  | removePendingForTask taskId completedAtMs =>
    exact .evolved (evolves_finishMatching state _ _ completedAtMs)
  | removePendingForAccount accountId completedAtMs =>
    exact .evolved (evolves_finishMatching state _ _ completedAtMs)
  | markNaturalUseForAccount accountId usedAtMs =>
    exact .evolved (evolves_finishMatching state _ _ usedAtMs)
  | restart =>
    simp only [WakeOp.step]
    split
    case h_1 state' hstate => exact .evolved (evolves_fromState sha256 hstate)
    case h_2 => exact outcome_refl state

/-! ## One slot, one step -/

variable {cycles : List WakeCycle} {slot : Slot}

theorem cycleAt_eq_none :
    cycleAt cycles slot = none ↔ slot ∉ cycles.map (·.slot) := by
  simp [cycleAt, List.find?_eq_none]

theorem cycleAt_cons_self (cycle : WakeCycle) (cycles : List WakeCycle)
    (h : cycle.slot = slot) : cycleAt (cycle :: cycles) slot = some cycle := by
  simp [cycleAt, h]

theorem cycleAt_cons_ne (cycle : WakeCycle) (cycles : List WakeCycle)
    (h : cycle.slot ≠ slot) : cycleAt (cycle :: cycles) slot = cycleAt cycles slot := by
  simp [cycleAt, h]

theorem mem_of_cycleAt (h : cycleAt cycles slot = some cycle) : cycle ∈ cycles ∧ cycle.slot = slot :=
  ⟨List.mem_of_find?_eq_some h, by simpa using List.find?_some h⟩

/-- In a sound state the cycle in a slot is the only one. -/
theorem Sound.cycleAt_of_mem (hs : Sound cycles)
    (h : cycle ∈ cycles) : cycleAt cycles cycle.slot = some cycle := by
  cases hfind : cycleAt cycles cycle.slot with
  | none => exact absurd (List.mem_map_of_mem h) (cycleAt_eq_none.mp hfind)
  | some other =>
    obtain ⟨hmem, hslot⟩ := mem_of_cycleAt hfind
    rw [List.inj_on_of_nodup_map hs.unique hmem h hslot]

/-- What a step does to the cycle in one slot, and the permits it gives for that slot. -/
inductive SlotStep : Option WakeCycle → List WakePermit → Option WakeCycle → Prop
  | absent : SlotStep none [] none
  | created {cycle : WakeCycle} : cycle.attemptsStarted = 0 → SlotStep none [] (some cycle)
  | dropped {cycle : WakeCycle} : SlotStep (some cycle) [] none
  | kept {before after : WakeCycle} : Keeps before after → SlotStep (some before) [] (some after)
  | claimed {before after : WakeCycle} {permit : WakePermit} :
      Claims before permit after → SlotStep (some before) [permit] (some after)

theorem SlotStep.refl (cycle? : Option WakeCycle) : SlotStep cycle? [] cycle? := by
  cases cycle? with
  | none => exact .absent
  | some cycle => exact .kept (Keeps.refl cycle)

theorem Evolves.issued_slot_ne {issued cycles cycles'} (h : Evolves issued cycles cycles')
    (hslot : slot ∉ cycles.map (·.slot)) : issued.filter (·.slot = slot) = [] := by
  refine List.filter_eq_nil_iff.mpr fun permit hp heq => hslot ?_
  have hmem := h.slot_of_issued hp
  rwa [of_decide_eq_true heq] at hmem

theorem Evolves.slotStep {issued cycles cycles'} (h : Evolves issued cycles cycles')
    (hn : (cycles.map (·.slot)).Nodup) (slot : Slot) :
    SlotStep (cycleAt cycles slot) (issued.filter (·.slot = slot)) (cycleAt cycles' slot) := by
  induction h with
  | nil => exact .absent
  | @keep issued cycles cycles' before after hk h ih =>
    obtain ⟨hhead, htail⟩ := List.nodup_cons.mp hn
    by_cases hslot : before.slot = slot
    · subst hslot
      rw [cycleAt_cons_self before cycles rfl, cycleAt_cons_self after cycles' hk.slot,
        h.issued_slot_ne hhead]
      exact .kept hk
    · rw [cycleAt_cons_ne before cycles hslot,
        cycleAt_cons_ne after cycles' (fun heq => hslot (hk.slot.symm.trans heq))]
      exact ih htail
  | @claim issued cycles cycles' before after permit hc h ih =>
    obtain ⟨hhead, htail⟩ := List.nodup_cons.mp hn
    by_cases hslot : before.slot = slot
    · subst hslot
      rw [cycleAt_cons_self before cycles rfl, cycleAt_cons_self after cycles' hc.slot,
        List.filter_cons_of_pos (by simp [hc.permitSlot]), h.issued_slot_ne hhead]
      exact .claimed hc
    · rw [cycleAt_cons_ne before cycles hslot,
        cycleAt_cons_ne after cycles' (fun heq => hslot (hc.slot.symm.trans heq)),
        List.filter_cons_of_neg (by simpa [hc.permitSlot] using hslot)]
      exact ih htail

/-- Dropping the oldest completed cycle empties its slot and leaves the others. -/
theorem slotStep_eraseP (hn : (cycles.map (·.slot)).Nodup)
    (leaves : WakeCycle → Bool) (slot : Slot) :
    SlotStep (cycleAt cycles slot) [] (cycleAt (cycles.eraseP leaves) slot) := by
  induction cycles with
  | nil => exact .absent
  | cons cycle cycles ih =>
    obtain ⟨hhead, htail⟩ := List.nodup_cons.mp hn
    by_cases hleaves : leaves cycle = true
    · rw [List.eraseP_cons_of_pos hleaves]
      by_cases hslot : cycle.slot = slot
      · subst hslot
        rw [cycleAt_cons_self cycle cycles rfl, cycleAt_eq_none.mpr hhead]
        exact .dropped
      · rw [cycleAt_cons_ne cycle cycles hslot]
        exact SlotStep.refl _
    · rw [List.eraseP_cons_of_neg hleaves]
      by_cases hslot : cycle.slot = slot
      · rw [cycleAt_cons_self cycle _ hslot, cycleAt_cons_self cycle _ hslot]
        exact .kept (Keeps.refl cycle)
      · rw [cycleAt_cons_ne cycle _ hslot, cycleAt_cons_ne cycle _ hslot]
        exact ih htail

theorem cycleAt_append (cycles : List WakeCycle) (cycle : WakeCycle) (slot : Slot) :
    cycleAt (cycles ++ [cycle]) slot =
      (cycleAt cycles slot).or (if cycle.slot = slot then some cycle else none) := by
  simp only [cycleAt, List.find?_append]
  congr 1
  by_cases h : cycle.slot = slot <;> simp [h]

variable {state : WakeAutomationState}

theorem Outcome.slotStep {issued cycles}
    (h : Outcome state issued cycles) (hs : Sound state.cycles) (slot : Slot) :
    SlotStep (cycleAt state.cycles slot) (issued.filter (·.slot = slot)) (cycleAt cycles slot) := by
  cases h with
  | evolved h => exact h.slotStep hs.unique slot
  | @created cycle kept room empty fresh limit =>
    have hkept : SlotStep (cycleAt state.cycles slot) [] (cycleAt kept slot) := by
      rcases room with rfl | rfl
      · exact SlotStep.refl _
      · exact slotStep_eraseP hs.unique _ slot
    rw [List.filter_nil, cycleAt_append]
    by_cases hslot : cycle.slot = slot
    · subst hslot
      have hnone := cycleAt_eq_none.mpr empty
      rw [hnone] at hkept ⊢
      have hkeptNone : cycleAt kept cycle.slot = none := by
        refine cycleAt_eq_none.mpr fun hmem => empty ?_
        rcases room with rfl | rfl
        · exact hmem
        · exact List.map_subset _ List.eraseP_subset hmem
      rw [hkeptNone, if_pos rfl, Option.none_or]
      exact .created fresh
    · rw [if_neg hslot, Option.or_none]
      exact hkept

/-! ## Soundness of runs -/

variable {before after : WakeCycle}

theorem withinLimit_keeps (h : Keeps before after)
    (hw : before.WithinLimit) : after.WithinLimit := by
  unfold WakeCycle.WithinLimit
  rw [h.maxAttempts, h.attemptsStarted]
  exact hw

theorem Claims.attempts_succ (h : Claims before permit after) (hw : before.WithinLimit) :
    after.attemptsStarted = before.attemptsStarted + 1 := by
  have hmax : before.maxAttempts ≤ 2 := hw.1.2
  rw [h.attemptsStarted]
  exact satAdd_of_lt (by have := h.room; omega)

theorem withinLimit_claims (h : Claims before permit after) (hw : before.WithinLimit) : after.WithinLimit := by
  unfold WakeCycle.WithinLimit
  rw [h.maxAttempts, h.attempts_succ hw]
  exact ⟨hw.1, h.room⟩

theorem Evolves.withinLimit {issued cycles cycles'} (h : Evolves issued cycles cycles')
    (hw : ∀ cycle ∈ cycles, cycle.WithinLimit) : ∀ cycle ∈ cycles', cycle.WithinLimit := by
  induction h with
  | nil => exact hw
  | keep hk _ ih =>
    rw [List.forall_mem_cons] at hw ⊢
    exact ⟨withinLimit_keeps hk hw.1, ih hw.2⟩
  | claim hc _ ih =>
    rw [List.forall_mem_cons] at hw ⊢
    exact ⟨withinLimit_claims hc hw.1, ih hw.2⟩

theorem Outcome.sound {issued cycles}
    (h : Outcome state issued cycles) (hs : Sound state.cycles) : Sound cycles := by
  cases h with
  | evolved h => exact ⟨h.map_slot ▸ hs.unique, h.withinLimit hs.limits⟩
  | @created cycle kept room empty fresh limit =>
    have hsub : kept.Sublist state.cycles := by
      rcases room with rfl | rfl
      · exact List.Sublist.refl _
      · exact List.eraseP_sublist
    constructor
    · rw [List.map_append, List.map_singleton]
      refine List.nodup_append.mpr ⟨hs.unique.sublist (hsub.map _), List.nodup_singleton _, ?_⟩
      intro slot hmem other hother heq
      rw [List.mem_singleton] at hother
      exact empty (hother ▸ heq ▸ (hsub.map _).subset hmem)
    · intro other hother
      rcases List.mem_append.mp hother with hmem | hmem
      · exact hs.limits other (hsub.subset hmem)
      · rw [List.mem_singleton.mp hmem]
        exact ⟨limit, by rw [fresh]; exact Nat.zero_le _⟩

end Zenith.Automations
