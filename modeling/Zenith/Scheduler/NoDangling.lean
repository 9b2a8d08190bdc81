import Zenith.Scheduler.Operations

/-!
# No dangling candidate state

The scheduler files facts about a candidate in fourteen side tables. `NoDangling` says that every
candidate id found in one of them is a key of `candidates`, and that a cooldown reason always
belongs to a cooldown of its candidate. Every operation keeps it (`NoDangling.step`), so it holds
in every state a run reaches.

`Files s s'` is the step condition: the step files nothing under a candidate unknown to `s`.
-/

namespace Zenith.Scheduler

open Std Zenith.Text Zenith.Tables Zenith.Runs

/-! ## The invariant and the step condition -/

structure NoDangling (s : PoolScheduler) : Prop where
  responseAffinity : ∀ id, s.responseAffinity.Owns id → s.candidates.contains id = true
  promptAffinity : ∀ id, s.promptAffinity.Owns id → s.candidates.contains id = true
  halfOpen : ∀ key ∈ s.halfOpen, s.candidates.contains key.1 = true
  executionFences : ∀ id : String, s.executionFences[id]?.isSome → s.candidates.contains id = true
  capabilityBlocks : ∀ key ∈ s.capabilityBlocks, s.candidates.contains key.1 = true
  subscriptionExpiresAtMs : ∀ id : String, s.subscriptionExpiresAtMs[id]?.isSome →
    s.candidates.contains id = true
  subscriptionPlans : ∀ id : String, s.subscriptionPlans[id]?.isSome →
    s.candidates.contains id = true
  retiredCandidates : ∀ id ∈ s.retiredCandidates, s.candidates.contains id = true
  protectedCandidate : ∀ e, s.protectedCandidate = some e → s.candidates.contains e.1 = true
  activity : ∀ id, s.activity.Mentions id → s.candidates.contains id = true
  cooldownReasons : ∀ key : String × String, s.cooldownReasons[key]?.isSome →
    ∃ candidate, s.candidates.get? key.1 = some candidate ∧ candidate.cooldowns[key.2]?.isSome

/-- Every id the step files was filed already or is a candidate of `s`. As in `Quiet`, a field that
is not given is not touched. -/
structure Files (s s' : PoolScheduler) : Prop where
  responseAffinity : ∀ id, s'.responseAffinity.Owns id →
      s.responseAffinity.Owns id ∨ s.candidates.contains id = true := by exact fun _ => .inl
  promptAffinity : ∀ id, s'.promptAffinity.Owns id →
      s.promptAffinity.Owns id ∨ s.candidates.contains id = true := by exact fun _ => .inl
  halfOpen : ∀ key ∈ s'.halfOpen,
      key ∈ s.halfOpen ∨ s.candidates.contains key.1 = true := by exact fun _ => .inl
  executionFences : ∀ id : String, s'.executionFences[id]?.isSome →
      s.executionFences[id]?.isSome ∨ s.candidates.contains id = true := by exact fun _ => .inl
  capabilityBlocks : ∀ key ∈ s'.capabilityBlocks,
      key ∈ s.capabilityBlocks ∨ s.candidates.contains key.1 = true := by exact fun _ => .inl
  subscriptionExpiresAtMs : ∀ id : String, s'.subscriptionExpiresAtMs[id]?.isSome →
      s.subscriptionExpiresAtMs[id]?.isSome ∨ s.candidates.contains id = true := by
    exact fun _ => .inl
  subscriptionPlans : ∀ id : String, s'.subscriptionPlans[id]?.isSome →
      s.subscriptionPlans[id]?.isSome ∨ s.candidates.contains id = true := by exact fun _ => .inl
  retiredCandidates : ∀ id ∈ s'.retiredCandidates,
      id ∈ s.retiredCandidates ∨ s.candidates.contains id = true := by exact fun _ => .inl
  protectedCandidate : ∀ e, s'.protectedCandidate = some e →
      s.protectedCandidate = some e ∨ s.candidates.contains e.1 = true := by exact fun _ => .inl
  activity : ∀ id, s'.activity.Mentions id →
      s.activity.Mentions id ∨ s.candidates.contains id = true := by exact fun _ => .inl

variable {s s' : PoolScheduler}

theorem NoDangling.new : NoDangling PoolScheduler.new where
  responseAffinity := fun _ h => absurd h (AffinityCache.not_owns_empty _ _ _)
  promptAffinity := fun _ h => absurd h (AffinityCache.not_owns_empty _ _ _)
  halfOpen := fun _ h => by simp [PoolScheduler.new] at h
  executionFences := fun _ h => by simp [PoolScheduler.new] at h
  capabilityBlocks := fun _ h => by simp [PoolScheduler.new] at h
  subscriptionExpiresAtMs := fun _ h => by simp [PoolScheduler.new] at h
  subscriptionPlans := fun _ h => by simp [PoolScheduler.new] at h
  retiredCandidates := fun _ h => by simp [PoolScheduler.new] at h
  protectedCandidate := fun _ h => by simp [PoolScheduler.new] at h
  activity := fun _ h => absurd h (SchedulerActivity.not_mentions_empty _)
  cooldownReasons := fun _ h => by simp [PoolScheduler.new] at h

/-- A step that files only known candidates, forgets none and keeps the reasons attached keeps the
invariant. -/
theorem NoDangling.of_files (h : NoDangling s) (hf : Files s s')
    (hkeep : ∀ id, s.candidates.contains id = true → s'.candidates.contains id = true)
    (hreasons : ∀ key : String × String, s'.cooldownReasons[key]?.isSome →
      ∃ candidate, s'.candidates.get? key.1 = some candidate ∧
        candidate.cooldowns[key.2]?.isSome) : NoDangling s' where
  responseAffinity := fun id ho => hkeep id ((hf.responseAffinity id ho).elim (h.responseAffinity id) fun h => h)
  promptAffinity := fun id ho => hkeep id ((hf.promptAffinity id ho).elim (h.promptAffinity id) fun h => h)
  halfOpen := fun key hk => hkeep _ ((hf.halfOpen key hk).elim (h.halfOpen key) fun h => h)
  executionFences := fun id hi =>
    hkeep id ((hf.executionFences id hi).elim (h.executionFences id) fun h => h)
  capabilityBlocks := fun key hk =>
    hkeep _ ((hf.capabilityBlocks key hk).elim (h.capabilityBlocks key) fun h => h)
  subscriptionExpiresAtMs := fun id hi =>
    hkeep id ((hf.subscriptionExpiresAtMs id hi).elim (h.subscriptionExpiresAtMs id) fun h => h)
  subscriptionPlans := fun id hi =>
    hkeep id ((hf.subscriptionPlans id hi).elim (h.subscriptionPlans id) fun h => h)
  retiredCandidates := fun id hi =>
    hkeep id ((hf.retiredCandidates id hi).elim (h.retiredCandidates id) fun h => h)
  protectedCandidate := fun e he =>
    hkeep _ ((hf.protectedCandidate e he).elim (h.protectedCandidate e) fun h => h)
  activity := fun id hm => hkeep id ((hf.activity id hm).elim (h.activity id) fun h => h)
  cooldownReasons := hreasons

/-- A step on leases and cooldowns files nothing but markers and leases. -/
theorem Files.of_leases
    (hsame : s' = { s with
      candidates := s'.candidates, cooldownReasons := s'.cooldownReasons
      halfOpen := s'.halfOpen, activity := s'.activity, providerStormBreakers := s'.providerStormBreakers })
    (hhalf : ∀ key ∈ s'.halfOpen, key ∈ s.halfOpen ∨ s.candidates.contains key.1 = true)
    (hactivity : ∀ id, s'.activity.Mentions id →
      s.activity.Mentions id ∨ s.candidates.contains id = true) : Files s s' := by
  rw [hsame]
  exact { halfOpen := hhalf, activity := hactivity }

/-! ## Quiet operations and membership -/

theorem Quiet.files (q : Quiet s s') : Files s s' where
  responseAffinity := q.responseAffinity
  promptAffinity := q.promptAffinity
  halfOpen := fun _ hk => .inl (q.halfOpen ▸ hk)
  executionFences := q.executionFences
  capabilityBlocks := q.capabilityBlocks
  subscriptionExpiresAtMs := q.subscriptionExpiresAtMs
  subscriptionPlans := q.subscriptionPlans
  retiredCandidates := fun _ hi => .inl (q.retiredCandidates ▸ hi)
  protectedCandidate := q.protectedCandidate
  activity := fun _ hm => .inl (q.mentions hm)

theorem NoDangling.quiet (h : NoDangling s) (q : Quiet s s') : NoDangling s' := by
  refine h.of_files q.files (fun id hc => (q.contains_eq id).trans hc) ?_
  intro key hk
  rw [q.cooldownReasons] at hk
  obtain ⟨candidate, hget, hcool⟩ := h.cooldownReasons key hk
  have hcore := q.core key.1
  rw [hget, Option.map_some, Option.map_eq_some_iff] at hcore
  obtain ⟨now, hnow, heq⟩ := hcore
  refine ⟨now, hnow, ?_⟩
  rw [show now.cooldowns = candidate.cooldowns from congrArg Prod.snd heq]
  exact hcool

theorem NoDangling.upsert (h : NoDangling s) (candidate : RuntimeCandidate) :
    NoDangling (s.upsert candidate) := by
  refine h.of_files { retiredCandidates := fun _ hi => .inl (Finset.mem_of_mem_erase hi) } ?_ ?_
  · intro id hc
    simp only [PoolScheduler.upsert, CandidateTable.contains, CandidateTable.get?_insert]
    split
    · rfl
    · exact hc
  · rintro ⟨id, scope⟩ hk
    obtain ⟨hsome, hp⟩ := isSome_retain.mp hk
    simp only [PoolScheduler.upsert, CandidateTable.get?_insert]
    split
    · next hid =>
      refine ⟨candidate, rfl, ?_⟩
      rw [ExtTreeMap.contains_eq_isSome_getElem?] at hp
      simpa [hid] using hp
    · exact h.cooldownReasons (id, scope) hsome

/-- A step that only rewrites the candidate `id` in place forgets no candidate. -/
theorem contains_modify {t : CandidateTable} {id i : String}
    {f : RuntimeCandidate → RuntimeCandidate} (h : t.contains i = true)
    (hf : ∀ c, (f c).id = c.id := by intros; rfl) : (t.modify id f hf).contains i = true := by
  rw [CandidateTable.contains_iff] at h ⊢
  obtain ⟨candidate, hget⟩ := h
  rw [CandidateTable.get?_modify]
  split
  · next hi => exact ⟨f candidate, by rw [hi, hget]; rfl⟩
  · exact ⟨candidate, hget⟩

/-- Forgetting a candidate purges every table of it. -/
theorem NoDangling.removeNow (h : NoDangling s) (id : String) : NoDangling (s.removeNow id).1 := by
  have hkeep : ∀ i, id ≠ i → s.candidates.contains i = true →
      (s.candidates.erase id).contains i = true := by
    intro i hi hc
    simpa [CandidateTable.contains, hi] using hc
  constructor
  · intro i ho
    obtain ⟨hne, ho⟩ := AffinityCache.Owns.of_invalidateCandidate ho
    exact hkeep i hne (h.responseAffinity i ho)
  · intro i ho
    obtain ⟨hne, ho⟩ := AffinityCache.Owns.of_invalidateCandidate ho
    exact hkeep i hne (h.promptAffinity i ho)
  · intro key hk
    obtain ⟨hk, hne⟩ := Finset.mem_filter.mp hk
    exact hkeep _ (Ne.symm hne) (h.halfOpen key hk)
  · intro i hi
    obtain ⟨hi, hne⟩ := PoolScheduler.isSome_erase hi
    exact hkeep i hne (h.executionFences i hi)
  · intro key hk
    obtain ⟨hk, hne⟩ := Finset.mem_filter.mp hk
    exact hkeep _ (Ne.symm hne) (h.capabilityBlocks key hk)
  · intro i hi
    obtain ⟨hi, hne⟩ := PoolScheduler.isSome_erase hi
    exact hkeep i hne (h.subscriptionExpiresAtMs i hi)
  · intro i hi
    obtain ⟨hi, hne⟩ := PoolScheduler.isSome_erase hi
    exact hkeep i hne (h.subscriptionPlans i hi)
  · intro i hi
    obtain ⟨hne, hi⟩ := Finset.mem_erase.mp hi
    exact hkeep i (Ne.symm hne) (h.retiredCandidates i hi)
  · intro e he
    obtain ⟨he, hne⟩ := Option.filter_eq_some_iff.mp he
    exact hkeep _ (Ne.symm (of_decide_eq_true hne)) (h.protectedCandidate e he)
  · intro i hm
    obtain ⟨hne, hm⟩ := hm.of_removeCandidate
    exact hkeep i hne (h.activity i hm)
  · rintro ⟨i, scope⟩ hk
    obtain ⟨hk, hne⟩ := isSome_retain.mp hk
    obtain ⟨candidate, hget, hcool⟩ := h.cooldownReasons _ hk
    refine ⟨candidate, ?_, hcool⟩
    rw [show (s.removeNow id).1.candidates = s.candidates.erase id from rfl,
      CandidateTable.get?_erase, if_neg (Ne.symm (of_decide_eq_true hne))]
    exact hget

/-- A tombstone is still a candidate, with its cooldowns. -/
theorem NoDangling.retire (h : NoDangling s) {id : String}
    (hpresent : s.candidates.contains id = true) : NoDangling (s.retire id) := by
  refine h.of_files { responseAffinity := fun _ ho => .inl ho.of_invalidateCandidate.2
                      promptAffinity := fun _ ho => .inl ho.of_invalidateCandidate.2
                      retiredCandidates := ?_ } (fun i hi => contains_modify hi) ?_
  · intro i hi
    rcases Finset.mem_insert.mp hi with rfl | hi
    · exact .inr hpresent
    · exact .inl hi
  · rintro ⟨i, scope⟩ hk
    obtain ⟨candidate, hc, hcool⟩ := h.cooldownReasons _ hk
    simp only [PoolScheduler.retire, CandidateTable.get?_modify]
    split
    · next hi =>
      subst hi
      refine ⟨_, by rw [hc]; rfl, ?_⟩
      exact hcool
    · exact ⟨candidate, hc, hcool⟩

theorem NoDangling.remove (h : NoDangling s) (id : String) : NoDangling (s.remove id).1 := by
  rcases s.remove_cases id with ⟨_, heq⟩ | ⟨candidate, hget, _, heq⟩ | ⟨candidate, _, _, heq⟩
  · rw [heq]
    exact h
  · rw [heq]
    exact h.retire (CandidateTable.contains_iff.mpr ⟨candidate, hget⟩)
  · rw [heq]
    exact h.removeNow id

/-! ## Leases -/

theorem NoDangling.reserveForLane (h : NoDangling s) (id model : String) (nowMs : Nat)
    (lane : InFlightLane) : NoDangling (s.reserveForLane id model nowMs lane).1 := by
  rcases s.reserveForLane_cases id model nowMs lane with heq | ⟨candidate, hget, _, hcase⟩
  · rw [heq]
    exact h
  · have hpresent : s.candidates.contains id = true :=
      CandidateTable.contains_iff.mpr ⟨candidate, hget⟩
    have hactivity : ∀ i, (s.activity.reserve id model lane).Mentions i →
        s.activity.Mentions i ∨ s.candidates.contains i = true := by
      intro i hm
      rcases hm.of_reserve with rfl | hm
      · exact .inr hpresent
      · exact .inl hm
    rcases hcase with ⟨heq, _⟩ | ⟨scope, _, _, _, heq⟩
    · rw [heq]
      exact h.of_files (.of_leases rfl (fun _ => .inl) hactivity) (fun _ hi => hi) h.cooldownReasons
    · rw [heq]
      refine h.of_files (.of_leases rfl ?_ hactivity) (fun _ hi => hi) h.cooldownReasons
      intro key hk
      rcases Finset.mem_insert.mp hk with rfl | hk
      · exact .inr hpresent
      · exact .inl hk

theorem NoDangling.finalizeRetiredIfIdle (h : NoDangling s) (id : String) :
    NoDangling (s.finalizeRetiredIfIdle id) := by
  unfold PoolScheduler.finalizeRetiredIfIdle
  split
  · exact h.removeNow id
  · exact h

theorem NoDangling.releaseForLane (h : NoDangling s) (id : String) (model : Option String)
    (lane : InFlightLane) : NoDangling (s.releaseForLane id model lane).1 := by
  have hreleased : NoDangling { s with
      halfOpen := PoolScheduler.releasedMarkers s.halfOpen id model
      activity := (s.activity.release id model lane).1 } := by
    refine h.of_files (.of_leases rfl ?_ fun i hm => .inl hm.of_release)
      (fun _ hi => hi) h.cooldownReasons
    intro key hk
    cases model with
    | none => exact .inl (Finset.mem_filter.mp hk).1
    | some model => exact .inl (Finset.mem_of_mem_erase (Finset.mem_of_mem_erase hk))
  unfold PoolScheduler.releaseForLane
  simp only
  split
  · exact hreleased.finalizeRetiredIfIdle id
  · exact hreleased

/-! ## Outcomes and cooldowns -/

theorem NoDangling.recordSuccess (h : NoDangling s) (id model : String) (nowMs : Nat) :
    NoDangling (s.recordSuccess id model nowMs).1 := by
  rcases s.recordSuccess_cases id model nowMs with heq | ⟨candidate, hget, heq⟩
  · rw [heq]
    exact h
  · rw [heq]
    refine h.of_files (.of_leases rfl (fun _ hk => .inl (Finset.mem_of_mem_erase hk)) fun _ => .inl)
      (fun i hi => contains_modify hi (PoolScheduler.recoverCandidate_id model nowMs)) ?_
    rintro ⟨i, scope⟩ hk
    obtain ⟨hk, hp⟩ := isSome_retain.mp hk
    simp only [PoolScheduler.settle, CandidateTable.get?_modify]
    split
    · next hi =>
      subst hi
      rw [ExtTreeMap.contains_eq_isSome_getElem?] at hp
      exact ⟨_, by rw [hget]; rfl, by simpa using hp⟩
    · exact h.cooldownReasons _ hk

/-- A reason was filed before the cooldown was stored, or is the one stored with it. -/
theorem isSome_reason_storeCooldown {candidate : RuntimeCandidate} {id target i scope : String}
    {retryAtMs : Nat} {reason : CooldownReason}
    (hk : (s.storeCooldown candidate id target retryAtMs reason).cooldownReasons[(i, scope)]?.isSome) :
    s.cooldownReasons[(i, scope)]?.isSome ∨ (id = i ∧ target = scope) := by
  simp only [PoolScheduler.storeCooldown] at hk
  split at hk
  · rw [ExtTreeMap.getElem?_insert] at hk
    split at hk
    · next he =>
      rw [LawfulEqCmp.compare_eq_iff_eq, Prod.mk.injEq] at he
      exact .inr he
    · exact .inl hk
  · exact .inl hk

theorem NoDangling.storeCooldown (h : NoDangling s) {candidate : RuntimeCandidate} {id : String}
    (hget : s.candidates.get? id = some candidate) (target : String) (retryAtMs : Nat)
    (reason : CooldownReason) :
    NoDangling (s.storeCooldown candidate id target retryAtMs reason) := by
  refine h.of_files (.of_leases rfl ?_ fun _ => .inl) (fun i hi => contains_modify hi) ?_
  · intro key hk
    simp only [PoolScheduler.storeCooldown] at hk
    split at hk
    · exact .inl (Finset.mem_filter.mp hk).1
    · exact .inl (Finset.mem_of_mem_erase hk)
  · rintro ⟨i, scope⟩ hk
    have hold := isSome_reason_storeCooldown hk
    simp only [PoolScheduler.storeCooldown, CandidateTable.get?_modify]
    split
    · next hi =>
      subst hi
      refine ⟨_, by rw [hget]; rfl, ?_⟩
      simp only [ExtTreeMap.getElem?_alter]
      split
      · rfl
      · next hne =>
        rcases hold with hold | ⟨_, rfl⟩
        · obtain ⟨c, hc, hcool⟩ := h.cooldownReasons _ hold
          rw [show c = candidate from Option.some.inj (hc.symm.trans hget)] at hcool
          exact hcool
        · exact absurd ReflCmp.compare_self hne
    · next hi => exact h.cooldownReasons _ (hold.resolve_right fun he => hi he.1)

theorem NoDangling.cool (h : NoDangling s) (id : String) (request : CooldownRequest)
    (enforcePolicy : Bool) :
    NoDangling (s.setCooldownWithReasonInner id request enforcePolicy).1 := by
  rcases s.setCooldown_cases id request enforcePolicy with heq | ⟨candidate, hget, heq⟩
  · rw [heq]
    exact h
  · rw [heq]
    exact h.storeCooldown hget _ _ _

theorem NoDangling.clearCooldown (h : NoDangling s) (id model : String) :
    NoDangling (s.clearCooldown id model).1 := by
  rcases s.clearCooldown_cases id model with heq | heq
  · rw [heq]
    exact h
  · rw [heq]
    refine h.of_files (.of_leases rfl (fun _ => .inl) fun _ => .inl) (fun i hi => contains_modify hi) ?_
    rintro ⟨i, scope⟩ hk
    obtain ⟨hk, hp⟩ := isSome_retain.mp hk
    obtain ⟨c, hc, hcool⟩ := h.cooldownReasons _ hk
    simp only [PoolScheduler.dropCooldowns, CandidateTable.get?_modify]
    split
    · next hi =>
      subst hi
      refine ⟨_, by rw [hc]; rfl, ?_⟩
      exact isSome_retain.mpr ⟨hcool, by simpa using hp⟩
    · exact ⟨c, hc, hcool⟩

/-! ## Runs -/

theorem NoDangling.pool (h : NoDangling s) (op : PoolOp) : NoDangling (op.step s) := by
  cases op with
  | quiet op => exact h.quiet (s.quiet_step op)
  | upsert candidate => exact h.upsert candidate
  | remove id => exact h.remove id
  | recordSuccess id model now => exact h.recordSuccess id model now
  | cool id request enforcePolicy => exact h.cool id request enforcePolicy
  | clearCooldown id model => exact h.clearCooldown id model

theorem NoDangling.step (h : NoDangling s) (op : SchedulerOp) : NoDangling (op.step s) := by
  cases op with
  | pool op => exact h.pool op
  | reserve id model now lane => exact h.reserveForLane id model now lane
  | release id model lane => exact h.releaseForLane id model lane

/-- In every state reachable from a new scheduler no side table mentions a candidate that is not
there, and every cooldown reason belongs to a cooldown of its candidate. -/
theorem noDangling_reachable (ops : List SchedulerOp) :
    NoDangling (run SchedulerOp.step PoolScheduler.new ops) :=
  run_invariant_of_forall (fun _ op h => h.step op) NoDangling.new ops

end Zenith.Scheduler
