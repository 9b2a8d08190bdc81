import Zenith.Lib.Runs
import Zenith.Scheduler.Selection

/-!
# Scheduler operations

The public operations of `PoolScheduler` as data, so that a run is a list of them.

Most operations are quiet (`QuietOp`): they change configuration, availability, fences, blocks,
breakers or affinity, and leave alone the membership, kinds and cooldowns of the candidates, the
probe markers, the retired set and the lease counters. `quiet_step` says so once for all of
them, together with the fact that they file nothing under an unknown candidate. `PoolOp` adds the
operations on membership and cooldowns, `SchedulerOp` the reservations and releases with whatever
arguments a caller passes.
-/

namespace Zenith.Scheduler

open Std Zenith.Text Zenith.Tables Zenith.Runs

/-! ## Operations as data -/

inductive QuietOp
  | setCooldownPolicy (cooldownAfterFailures : Nat) (keepLastCandidateAvailable : Bool)
  | setProviderStormBreakerEnabled (enabled : Bool)
  | setRoutingStrategy (strategy : RoutingStrategy)
  | setQuotaStaleAfterMs (staleAfterMs : Nat)
  | setCandidateSubscriptionExpiry (candidateId : String) (expiresAtMs : Option Nat)
  | setSubscriptionPlanOrder (order : List String)
  | setCandidateSubscriptionPlan (toLowercase : String → String) (candidateId : String)
      (planType : Option String)
  | setProtectedCandidate (candidateId : Option String) (reserveBasisPoints : Nat)
  | updateCandidateAvailabilityAt (candidateId : String) (enabled : Bool)
      (health : CandidateHealth) (quota : CandidateQuota) (quotaUpdatedAtMs : Option Nat)
  | updateCandidateQuotaAt (candidateId : String) (quota : CandidateQuota)
      (quotaUpdatedAtMs quotaResetAtMs : Option Nat)
  | setExecutionFence (candidateId : String) (fenced : Bool)
  | blockCapability (candidateId model : String)
  | clearCapabilityBlocks (candidateId : String)
  | recordProviderRateLimit (candidateId model : String) (nowMs : Nat)
  | setCandidateHealth (candidateId : String) (health : CandidateHealth)
  | select (request : SelectionRequest) (lane : InFlightLane)
  | earliestRetryAt (request : SelectionRequest)
  | allApplicableCooldown (request : SelectionRequest)
  | bindResponseAffinity (key candidateId : String) (nowMs : Nat)
  | bindPromptAffinity (key candidateId : String) (nowMs : Nat)
  | bindPromptAffinitySticky (key candidateId : String) (nowMs : Nat)
  | restoreResponseAffinity (key candidateId : String) (expiresAtMs nowMs : Nat)
  | restorePromptAffinity (key candidateId : String) (expiresAtMs nowMs : Nat)
  | hasResponseAffinity (key : String) (nowMs : Nat)
  | hasPromptAffinity (key : String) (nowMs : Nat)
  | invalidateResponseAffinity (key : String)
  | recordFailure (candidateId : String)
  | resetFailures (candidateId : String)

/-- `update_candidate_availability` is `updateCandidateAvailabilityAt` without a timestamp. -/
def QuietOp.step (s : PoolScheduler) : QuietOp → PoolScheduler
  | .setCooldownPolicy n keep => s.setCooldownPolicy n keep
  | .setProviderStormBreakerEnabled enabled => s.setProviderStormBreakerEnabled enabled
  | .setRoutingStrategy strategy => s.setRoutingStrategy strategy
  | .setQuotaStaleAfterMs ms => s.setQuotaStaleAfterMs ms
  | .setCandidateSubscriptionExpiry id at? => (s.setCandidateSubscriptionExpiry id at?).1
  | .setSubscriptionPlanOrder order => s.setSubscriptionPlanOrder order
  | .setCandidateSubscriptionPlan lower id plan => (s.setCandidateSubscriptionPlan lower id plan).1
  | .setProtectedCandidate id reserve => (s.setProtectedCandidate id reserve).1
  | .updateCandidateAvailabilityAt id enabled health quota updated =>
    (s.updateCandidateAvailabilityAt id enabled health quota updated).1
  | .updateCandidateQuotaAt id quota updated reset =>
    (s.updateCandidateQuotaAt id quota updated reset).1
  | .setExecutionFence id fenced => (s.setExecutionFence id fenced).1
  | .blockCapability id model => (s.blockCapability id model).1
  | .clearCapabilityBlocks id => (s.clearCapabilityBlocks id).1
  | .recordProviderRateLimit id model now => (s.recordProviderRateLimit id model now).1
  | .setCandidateHealth id health => (s.setCandidateHealth id health).1
  | .select request lane => (s.selectFor request lane).1
  | .earliestRetryAt request => (s.earliestRetryAt request).1
  | .allApplicableCooldown request => (s.allApplicableCooldown request).1
  | .bindResponseAffinity key id now => (s.bindResponseAffinity key id now).1
  | .bindPromptAffinity key id now => (s.bindPromptAffinity key id now).1
  | .bindPromptAffinitySticky key id now => (s.bindPromptAffinitySticky key id now).1
  | .restoreResponseAffinity key id expires now =>
    (s.restoreResponseAffinity key id expires now).1
  | .restorePromptAffinity key id expires now => (s.restorePromptAffinity key id expires now).1
  | .hasResponseAffinity key now => (s.hasResponseAffinity key now).1
  | .hasPromptAffinity key now => (s.hasPromptAffinity key now).1
  | .invalidateResponseAffinity key => (s.invalidateResponseAffinity key).1
  | .recordFailure id => (s.recordFailure id).1
  | .resetFailures id => (s.resetFailures id).1

/-- Everything but reservation and release. `cool` stands for `set_cooldown`,
`set_cooldown_with_reason` (both without policy) and `set_cooldown_with_reason_for_model_at`
(with it). -/
inductive PoolOp
  | quiet (op : QuietOp)
  | upsert (candidate : RuntimeCandidate)
  | remove (candidateId : String)
  | recordSuccess (candidateId model : String) (nowMs : Nat)
  | cool (candidateId : String) (request : CooldownRequest) (enforcePolicy : Bool)
  | clearCooldown (candidateId model : String)

def PoolOp.step (s : PoolScheduler) : PoolOp → PoolScheduler
  | .quiet op => op.step s
  | .upsert candidate => s.upsert candidate
  | .remove id => (s.remove id).1
  | .recordSuccess id model now => (s.recordSuccess id model now).1
  | .cool id request enforcePolicy => (s.setCooldownWithReasonInner id request enforcePolicy).1
  | .clearCooldown id model => (s.clearCooldown id model).1

inductive SchedulerOp
  | pool (op : PoolOp)
  | reserve (candidateId model : String) (nowMs : Nat) (lane : InFlightLane)
  | release (candidateId : String) (model : Option String) (lane : InFlightLane)

def SchedulerOp.step (s : PoolScheduler) : SchedulerOp → PoolScheduler
  | .pool op => op.step s
  | .reserve id model now lane => (s.reserveForLane id model now lane).1
  | .release id model lane => (s.releaseForLane id model lane).1

/-! ## Quiet operations -/

/-- The part of a candidate that leases and probes depend on. -/
def RuntimeCandidate.core (candidate : RuntimeCandidate) : CandidateKind × Table String Nat :=
  (candidate.kind, candidate.cooldowns)

/-- The step from `s` to `s'` is quiet. Each field defaults to "not touched", so a proof names the
fields its operation writes. -/
structure Quiet (s s' : PoolScheduler) : Prop where
  core : ∀ id, (s'.candidates.get? id).map (·.core) = (s.candidates.get? id).map (·.core) := by
    exact fun _ => rfl
  halfOpen : s'.halfOpen = s.halfOpen := by rfl
  retiredCandidates : s'.retiredCandidates = s.retiredCandidates := by rfl
  cooldownReasons : s'.cooldownReasons = s.cooldownReasons := by rfl
  activity : s'.activity = s.activity ∨ s'.activity = s.activity.clearDispatches := by
    exact .inl rfl
  responseAffinity : ∀ id, s'.responseAffinity.Owns id →
      s.responseAffinity.Owns id ∨ s.candidates.contains id = true := by exact fun _ => .inl
  promptAffinity : ∀ id, s'.promptAffinity.Owns id →
      s.promptAffinity.Owns id ∨ s.candidates.contains id = true := by exact fun _ => .inl
  executionFences : ∀ id : String, s'.executionFences[id]?.isSome →
      s.executionFences[id]?.isSome ∨ s.candidates.contains id = true := by exact fun _ => .inl
  capabilityBlocks : ∀ key ∈ s'.capabilityBlocks,
      key ∈ s.capabilityBlocks ∨ s.candidates.contains key.1 = true := by exact fun _ => .inl
  subscriptionExpiresAtMs : ∀ id : String, s'.subscriptionExpiresAtMs[id]?.isSome →
      s.subscriptionExpiresAtMs[id]?.isSome ∨ s.candidates.contains id = true := by
    exact fun _ => .inl
  subscriptionPlans : ∀ id : String, s'.subscriptionPlans[id]?.isSome →
      s.subscriptionPlans[id]?.isSome ∨ s.candidates.contains id = true := by exact fun _ => .inl
  protectedCandidate : ∀ e, s'.protectedCandidate = some e →
      s.protectedCandidate = some e ∨ s.candidates.contains e.1 = true := by exact fun _ => .inl

namespace PoolScheduler

/-- The core of every candidate survives an update of other fields. -/
theorem core_modify (t : CandidateTable) (id : String) {f : RuntimeCandidate → RuntimeCandidate}
    (hf : ∀ c, (f c).id = c.id := by intros; rfl)
    (hcore : ∀ c, (f c).core = c.core := by intros; rfl) (i : String) :
    ((t.modify id f hf).get? i).map (·.core) = (t.get? i).map (·.core) :=
  t.map_get?_modify id i RuntimeCandidate.core hcore

/-- A value is filed under a new id only by inserting it. -/
theorem isSome_insert {ν : Type} {t : Table String ν} {id i : String} {v : ν}
    (h : (t.insert id v)[i]?.isSome) : t[i]?.isSome ∨ id = i := by
  rw [ExtTreeMap.getElem?_insert] at h
  split at h
  · next he => exact .inr (Std.compare_eq_iff_eq.mp he)
  · exact .inl h

theorem isSome_erase {ν : Type} {t : Table String ν} {id i : String}
    (h : (t.erase id)[i]?.isSome) : t[i]?.isSome ∧ id ≠ i := by
  rw [ExtTreeMap.getElem?_erase] at h
  split at h
  · cases h
  · next he => exact ⟨h, fun hi => he (Std.compare_eq_iff_eq.mpr hi)⟩

variable (s : PoolScheduler)

/-! ### Selection touches the affinity caches only -/

/-- Selection reads through the caches: the scheduler it leaves differs in them only, and they own
nothing they did not own before. -/
theorem selectFor_fst (request : SelectionRequest) (lane : InFlightLane) :
    ∃ response prompt, (s.selectFor request lane).1 =
        { s with responseAffinity := response, promptAffinity := prompt } ∧
      (∀ id, response.Owns id → s.responseAffinity.Owns id) ∧
      ∀ id, prompt.Owns id → s.promptAffinity.Owns id := by
  have hpreferred (r : AffinityCache) (hr : ∀ id, r.Owns id → s.responseAffinity.Owns id) :
      ∃ response prompt,
        (({ s with responseAffinity := r } : PoolScheduler).selectPreferred request lane).1 =
          { s with responseAffinity := response, promptAffinity := prompt } ∧
        (∀ id, response.Owns id → s.responseAffinity.Owns id) ∧
        ∀ id, prompt.Owns id → s.promptAffinity.Owns id := by
    unfold selectPreferred promptOwner
    cases request.promptAffinityKey with
    | none =>
      refine ⟨r, s.promptAffinity, ?_, hr, fun _ h => h⟩
      simp only
      split <;> rfl
    | some key =>
      refine ⟨r, s.promptAffinity.prune request.nowMs, ?_, hr, fun _ h => h.of_prune⟩
      simp only
      split <;> rfl
  unfold selectFor
  cases request.responseAffinityKey with
  | none => exact hpreferred s.responseAffinity fun _ h => h
  | some key =>
    simp only
    split
    · unfold selectOwner
      split
      · refine ⟨_, s.promptAffinity, rfl, ?_, fun _ h => h⟩
        exact fun _ h => h.of_refresh.of_prune
      · exact ⟨_, s.promptAffinity, rfl, fun _ h => h.of_prune, fun _ h => h⟩
    · exact hpreferred _ fun _ h => h.of_prune

/-- A guard that has passed: the candidate is present. -/
theorem contains_of_guard {t : CandidateTable} {id i : String} (h : ¬ (!t.contains id) = true)
    (hi : id = i) : t.contains i = true := by
  rw [← hi]
  simpa using h

/-- No quiet operation touches what leases, probes and removal depend on, and none files anything
under a candidate that is not there. -/
theorem quiet_step (op : QuietOp) : Quiet s (op.step s) := by
  cases op with
  | setCooldownPolicy n keep => exact {}
  | setProviderStormBreakerEnabled enabled => exact {}
  | setRoutingStrategy strategy =>
    simp only [QuietOp.step, setRoutingStrategy]
    split
    · exact {}
    · exact { activity := .inr rfl }
  | setQuotaStaleAfterMs ms => exact {}
  | setCandidateSubscriptionExpiry id at? =>
    simp only [QuietOp.step, setCandidateSubscriptionExpiry]
    split
    · exact {}
    · next hp =>
      cases at? with
      | none => exact { subscriptionExpiresAtMs := fun _ h => .inl (isSome_erase h).1 }
      | some at? =>
        exact { subscriptionExpiresAtMs := fun _ h =>
          (isSome_insert h).imp_right (contains_of_guard hp) }
  | setSubscriptionPlanOrder order => exact {}
  | setCandidateSubscriptionPlan lower id plan =>
    simp only [QuietOp.step, setCandidateSubscriptionPlan]
    split
    · exact {}
    · next hp =>
      exact { subscriptionPlans := fun _ h =>
        (isSome_insert h).imp_right (contains_of_guard hp) }
  | setProtectedCandidate id reserve =>
    cases id with
    | none => exact { protectedCandidate := by rintro e ⟨⟩ }
    | some id =>
      simp only [QuietOp.step, setProtectedCandidate]
      split
      · exact {}
      · next hp =>
        refine { protectedCandidate := ?_ }
        rintro e ⟨⟩
        exact .inr (contains_of_guard hp rfl)
  | updateCandidateAvailabilityAt id enabled health quota updated =>
    simp only [QuietOp.step, updateCandidateAvailabilityAt]
    split
    · exact {}
    · refine { core := core_modify _ _, activity := ?_ }
      simp only
      split
      · exact .inr rfl
      · exact .inl rfl
  | updateCandidateQuotaAt id quota updated reset =>
    simp only [QuietOp.step, updateCandidateQuotaAt]
    split
    · exact {}
    · refine { core := core_modify _ _, activity := ?_ }
      simp only
      split
      · exact .inr rfl
      · exact .inl rfl
  | setExecutionFence id fenced =>
    simp only [QuietOp.step, setExecutionFence]
    split
    · exact {}
    · next hp =>
      split
      · refine { executionFences := fun i h => ?_ }
        simp only [getElem?_bump] at h
        split at h
        · next hi => exact .inr (contains_of_guard hp hi)
        · exact .inl h
      · exact { executionFences := fun _ h => .inl (isSome_of_unbump h) }
  | blockCapability id model =>
    simp only [QuietOp.step, blockCapability]
    split
    · exact {}
    · next hp =>
      refine { capabilityBlocks := fun key h => ?_ }
      rcases Finset.mem_insert.mp h with rfl | h
      · exact .inr (contains_of_guard hp rfl)
      · exact .inl h
  | clearCapabilityBlocks id =>
    exact { capabilityBlocks := fun _ h => .inl (Finset.mem_filter.mp h).1 }
  | recordProviderRateLimit id model now =>
    simp only [QuietOp.step, recordProviderRateLimit]
    split
    · exact {}
    · split <;> exact {}
  | setCandidateHealth id health =>
    simp only [QuietOp.step, setCandidateHealth]
    split
    · exact {}
    · exact { core := core_modify _ _ }
  | select request lane =>
    obtain ⟨response, prompt, heq, hr, hpr⟩ := s.selectFor_fst request lane
    rw [show (QuietOp.select request lane).step s = _ from heq]
    exact { responseAffinity := fun id h => .inl (hr id h)
            promptAffinity := fun id h => .inl (hpr id h) }
  | earliestRetryAt request =>
    simp only [QuietOp.step, earliestRetryAt]
    split
    · exact { responseAffinity := fun _ h => .inl h.of_prune }
    · exact {}
  | allApplicableCooldown request =>
    simp only [QuietOp.step, allApplicableCooldown]
    split
    · exact { responseAffinity := fun _ h => .inl h.of_prune }
    · exact {}
  | bindResponseAffinity key id now =>
    simp only [QuietOp.step, bindResponseAffinity]
    split
    · exact {}
    · next hp =>
      refine { responseAffinity := fun i h => ?_ }
      exact h.of_bindFor.symm.imp_right (contains_of_guard hp)
  | bindPromptAffinity key id now =>
    simp only [QuietOp.step, bindPromptAffinity]
    split
    · exact {}
    · next hp =>
      refine { promptAffinity := fun i h => ?_ }
      exact h.of_bindFor.symm.imp_right (contains_of_guard hp)
  | bindPromptAffinitySticky key id now =>
    simp only [QuietOp.step, bindPromptAffinitySticky]
    split
    · exact {}
    · next hp =>
      refine { promptAffinity := fun i h => ?_ }
      exact h.of_bindIfUnboundOrSame.symm.imp_right (contains_of_guard hp)
  | restoreResponseAffinity key id expires now =>
    simp only [QuietOp.step, restoreResponseAffinity]
    split
    · exact {}
    · next hp =>
      rw [Bool.or_eq_true, not_or] at hp
      refine { responseAffinity := fun i h => ?_ }
      exact h.of_restore.symm.imp_right (contains_of_guard hp.1)
  | restorePromptAffinity key id expires now =>
    simp only [QuietOp.step, restorePromptAffinity]
    split
    · exact {}
    · next hp =>
      rw [Bool.or_eq_true, not_or] at hp
      refine { promptAffinity := fun i h => ?_ }
      exact h.of_restore.symm.imp_right (contains_of_guard hp.1)
  | hasResponseAffinity key now => exact { responseAffinity := fun _ h => .inl h.of_prune }
  | hasPromptAffinity key now => exact { promptAffinity := fun _ h => .inl h.of_prune }
  | invalidateResponseAffinity key => exact { responseAffinity := fun _ h => .inl h.of_erase }
  | recordFailure id =>
    simp only [QuietOp.step, recordFailure]
    split
    · exact {}
    · exact { core := core_modify _ _ }
  | resetFailures id =>
    simp only [QuietOp.step, resetFailures]
    split
    · exact {}
    · exact { core := core_modify _ _ }

end PoolScheduler

/-! ### What follows from a quiet step -/

namespace Quiet

variable {s s' : PoolScheduler} (h : Quiet s s')
include h

theorem contains_eq (id : String) : s'.candidates.contains id = s.candidates.contains id := by
  have := congrArg Option.isSome (h.core id)
  simpa [CandidateTable.contains] using this

/-- A candidate after the step was there before, with the same kind and cooldowns. -/
theorem get?_of_get? {id : String} {candidate : RuntimeCandidate}
    (hget : s'.candidates.get? id = some candidate) :
    ∃ old, s.candidates.get? id = some old ∧ old.kind = candidate.kind ∧
      old.cooldowns = candidate.cooldowns := by
  have hcore := h.core id
  rw [hget, Option.map_some, eq_comm, Option.map_eq_some_iff] at hcore
  obtain ⟨old, hold, heq⟩ := hcore
  exact ⟨old, hold, congrArg Prod.fst heq, congrArg Prod.snd heq⟩

theorem inFlightCount_eq (id : String) (lane : InFlightLane) :
    s'.activity.inFlightCount id lane = s.activity.inFlightCount id lane := by
  rcases h.activity with he | he
  · rw [he]
  · rw [he, SchedulerActivity.inFlightCount_clearDispatches]

theorem requestCount_eq (id : String) (lane : InFlightLane) (model : String) :
    s'.activity.requestCount id lane model = s.activity.requestCount id lane model := by
  rcases h.activity with he | he
  · rw [he]
  · rw [he, SchedulerActivity.requestCount_clearDispatches]

theorem mentions {id : String} (hm : s'.activity.Mentions id) : s.activity.Mentions id := by
  rcases h.activity with he | he
  · rwa [he] at hm
  · rw [he] at hm
    exact hm.of_clearDispatches

end Quiet

end Zenith.Scheduler
