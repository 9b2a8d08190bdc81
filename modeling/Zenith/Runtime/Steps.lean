import Zenith.Runtime.Gateway
import Zenith.Scheduler.Retirement

/-!
# What a step of the runtime can do

The steps of `GatewayRuntime`, inverted once for all results about runs.

`poolStep` is about the scheduler and the leases: a step is a list of pool operations, the release
of a lease, or a lease on what was selected, and the only candidates it writes are those of an
accepted policy update (`upserts`). `accountState_step` is about what the runtime keeps of accounts
outside the scheduler. `sound_run` follows: from a runtime as it is built, every run with leases in
the range of the counters keeps the pool sound.
-/

namespace Zenith.Runtime

open Std Zenith.Tables Zenith.Runs Zenith.Scheduler

/-! ## What a step does to the pool -/

namespace GatewayRuntime

/-- The candidates a step writes into the scheduler: those of an accepted policy update. -/
def upserts (r : GatewayRuntime) : RuntimeOp → List RuntimeCandidate
  | .updateSourcePolicies updates => ((r.stageSources updates).getD []).map (·.2.1)
  | .updateAccountPolicy accountId policy => (r.stageAccount accountId policy).toList
  | _ => []

variable {r : GatewayRuntime}

/-- A policy is written to a candidate that was read from the scheduler. -/
theorem stageSource_present {update : RuntimeSourcePolicyUpdate}
    {staged : List (String × RuntimeCandidate × Nat)} (h : r.stageSource update = some staged)
    {item : String × RuntimeCandidate × Nat} (hitem : item ∈ staged) :
    (r.scheduler.candidates.get? item.2.1.id).isSome := by
  unfold stageSource at h
  simp only at h
  split at h
  · cases h
  · obtain ⟨bound, _, hbound⟩ := mem_of_mapM h hitem
    cases hget : r.scheduler.candidates.get? bound.1 with
    | none => simp [hget] at hbound
    | some candidate =>
      rw [hget] at hbound
      simp only at hbound
      split at hbound
      · cases hbound
      · obtain rfl := Option.some.inj hbound
        show (r.scheduler.candidates.get? candidate.id).isSome
        rw [CandidateTable.get?_id hget, hget]
        rfl

theorem upserts_present {op : RuntimeOp} {candidate : RuntimeCandidate}
    (h : candidate ∈ r.upserts op) : (r.scheduler.candidates.get? candidate.id).isSome := by
  cases op with
  | updateSourcePolicies updates =>
    obtain ⟨item, hitem, rfl⟩ := List.mem_map.mp h
    cases hstaged : r.stageSources updates with
    | none => simp [hstaged] at hitem
    | some staged =>
      rw [hstaged, Option.getD_some] at hitem
      unfold stageSources at hstaged
      split at hstaged
      · cases hstaged
      · split at hstaged
        · cases hstaged
        · obtain ⟨groups, hgroups, rfl⟩ := Option.map_eq_some_iff.mp hstaged
          obtain ⟨group, hgroup, hmem⟩ := List.mem_flatten.mp hitem
          obtain ⟨update, _, hupdate⟩ := mem_of_mapM hgroups hgroup
          exact stageSource_present hupdate hmem
  | updateAccountPolicy accountId policy =>
    rw [upserts, Option.mem_toList] at h
    unfold stageAccount at h
    split at h
    · cases h
    · cases hget : r.scheduler.candidates.get? accountId with
      | none => simp [hget] at h
      | some old =>
        simp only [hget] at h
        split at h
        · cases h
        · obtain rfl := Option.some.inj h
          show (r.scheduler.candidates.get? old.id).isSome
          rw [CandidateTable.get?_id hget, hget]
          rfl
  | _ => cases h

end GatewayRuntime

open GatewayRuntime

/-- A step of the runtime is, for scheduler and leases, a list of pool operations that write no
other candidates than the step's, the release of a lease, or a lease on what was selected. -/
inductive PoolStep (r : GatewayRuntime) (op : RuntimeOp) : LeasedPool → Prop
  | pools (ops : List PoolOp)
      (hops : ∀ candidate, .upsert candidate ∈ ops → candidate ∈ r.upserts op) :
      PoolStep r op (run LeaseOp.step r.pool (ops.map .pool))
  | release (index : Nat) : PoolStep r op (LeaseOp.step r.pool (.release index))
  | lease (request : SelectionRequest) (lane : InFlightLane) (selection : Selection)
      (hsel : (r.scheduler.selectFor request lane).2 = some selection) :
      PoolStep r op
        (LeaseOp.step (LeaseOp.step r.pool (.pool (.quiet (.select request lane))))
          (.reserve ⟨selection.candidateId, request.model, lane⟩ request.nowMs))

section
variable {r : GatewayRuntime} {op : RuntimeOp}

theorem PoolStep.none : PoolStep r op r.pool :=
  .pools [] fun _ hmem => by cases hmem

theorem PoolStep.quiet (q : QuietOp) : PoolStep r op (r.call (.pool (.quiet q))).pool :=
  .pools [.quiet q] fun _ hmem => by simp at hmem

/-- Calls made one after the other are one run of the pool. -/
theorem pool_foldl_call {α : Type} (f : α → PoolOp) (items : List α) (r : GatewayRuntime) :
    (items.foldl (fun r item => r.call (.pool (f item))) r).pool =
      run LeaseOp.step r.pool ((items.map f).map .pool) := by
  induction items generalizing r with
  | nil => rfl
  | cons item items ih => exact ih (r.call (.pool (f item)))

theorem poolStep (r : GatewayRuntime) (op : RuntimeOp) : PoolStep r op (r.step op).pool := by
  cases op with
  | calls ops =>
    rw [GatewayRuntime.step, pool_foldl_call PoolOp.quiet]
    refine .pools _ fun candidate hmem => ?_
    simp at hmem
  | recordSuccessWithMetrics id model now =>
    exact .pools [.recordSuccess id model now] fun _ hmem => by simp at hmem
  | setCooldown id request enforcePolicy =>
    exact .pools [.cool id request enforcePolicy] fun _ hmem => by simp at hmem
  | clearCandidateCooldown id model =>
    exact .pools [.clearCooldown id model] fun _ hmem => by simp at hmem
  | updateSourcePolicies updates =>
    rw [GatewayRuntime.step, updateSourcePolicies]
    cases hstaged : r.stageSources updates with
    | none => exact .none
    | some staged =>
      show PoolStep r _ (staged.foldl (fun r item => r.call (.pool (.upsert item.2.1))) r).pool
      rw [pool_foldl_call fun item : String × RuntimeCandidate × Nat => PoolOp.upsert item.2.1]
      refine .pools _ fun candidate hmem => ?_
      simpa [upserts, hstaged] using hmem
  | updateAccountPolicy accountId policy =>
    rw [GatewayRuntime.step, updateAccountPolicy]
    cases hstaged : r.stageAccount accountId policy with
    | none => exact .none
    | some candidate =>
      refine .pools [.upsert candidate] fun other hmem => ?_
      simpa [upserts, hstaged] using hmem
  | removeCandidate id =>
    have hpool : (r.step (.removeCandidate id)).pool = (r.call (.pool (.remove id))).pool := by
      simp only [GatewayRuntime.step, removeCandidate]
      split <;> rfl
    rw [hpool]
    exact .pools [.remove id] fun _ hmem => by simp at hmem
  | selectAndReserve request lane =>
    simp only [GatewayRuntime.step, selectAndReserve]
    cases hsel : (r.scheduler.selectFor request lane).2 with
    | none => exact .quiet (.select request lane)
    | some selection => exact .lease request lane selection hsel
  | releaseLease index => exact .release index
  | fenceExecution id =>
    have hpool : (r.step (.fenceExecution id)).pool =
        (r.call (.pool (.quiet (.setExecutionFence id true)))).pool := by
      simp only [GatewayRuntime.step, fenceExecution]
      split <;> rfl
    rw [hpool]
    exact .quiet _
  | dropFence index =>
    simp only [GatewayRuntime.step, dropFence]
    split
    · exact .none
    · exact .quiet _
  | observeCodexQuotaHeaders id accepted merge now =>
    simp only [GatewayRuntime.step, observeCodexQuotaHeaders]
    repeat' split
    · exact .none
    · exact .none
    · exact .none
    · exact .none
    · exact .quiet _
  | takePassiveQuotaSnapshot id now =>
    simp only [GatewayRuntime.step, takePassiveQuotaSnapshot]
    repeat' split
    all_goals exact .none
  | storeAgentIdentity id credential => exact .none

theorem pool_removeCandidate (r : GatewayRuntime) (id : String) :
    (r.step (.removeCandidate id)).pool = LeaseOp.step r.pool (.pool (.remove id)) := by
  simp only [GatewayRuntime.step, removeCandidate]
  split <;> rfl

/-! ## Sound pools along a run -/

/-- The number of leases that are out stays in the range of the counters. -/
def LeasesStayInRange (r : GatewayRuntime) (op : RuntimeOp) : Prop :=
  (r.step op).pool.leases.length < 2 ^ 32

theorem sound_step (h : Sound r.pool) (hfit : LeasesStayInRange r op) : Sound (r.step op).pool := by
  have hstep := poolStep r op
  unfold LeasesStayInRange at hfit
  generalize (r.step op).pool = p at hstep hfit
  cases hstep with
  | pools ops hops => exact h.pools ops
  | release index => exact h.step (.release index) hfit
  | lease request lane selection hsel =>
    exact (h.step (.pool (.quiet (.select request lane))) h.fits).step _ hfit

/-- A runtime as it is built: nothing is leased, counted, probed or retired, and every account is
active. -/
structure Fresh (r : GatewayRuntime) : Prop where
  leases : r.pool.leases = []
  activity : r.scheduler.activity = {}
  halfOpen : r.scheduler.halfOpen = ∅
  retiredCandidates : r.scheduler.retiredCandidates = ∅
  active : ∀ (id : String) (account : ChatGptAccountExecutor),
    r.chatgptAccounts[id]? = some account → account.active = true

theorem Fresh.sound (h : Fresh r) : Sound r.pool where
  counts := by
    rw [h.activity, h.leases]
    exact Counts.empty
  probes := by
    intro key hk
    rw [h.halfOpen] at hk
    exact absurd hk (Finset.notMem_empty key)
  fits := by
    rw [h.leases]
    exact Nat.pow_pos (by decide)
  held := by
    intro id hpos
    rw [h.leases] at hpos
    exact absurd hpos (Nat.lt_irrefl 0)

theorem sound_run (h : Sound r.pool) {ops : List RuntimeOp}
    (hfit : StepsMeet GatewayRuntime.step LeasesStayInRange r ops) :
    Sound (run GatewayRuntime.step r ops).pool :=
  run_invariant (I := fun r => Sound r.pool) (fun _ _ h hfit => sound_step h hfit) h hfit

end

/-! ## What is kept outside the scheduler -/

namespace GatewayRuntime

/-- The state of the accounts outside the scheduler. -/
def accountState (r : GatewayRuntime) :
    Table String ChatGptAccountExecutor × Table String PassiveQuotaState :=
  (r.chatgptAccounts, r.passiveQuotas)

theorem accountState_foldl_call {α : Type} (f : α → PoolOp) (items : List α) (r : GatewayRuntime) :
    (items.foldl (fun r item => r.call (.pool (f item))) r).accountState = r.accountState := by
  induction items generalizing r with
  | nil => rfl
  | cons item items ih => exact ih (r.call (.pool (f item)))

/-- Account state changes when a removal that is not deferred tears it down, when the quota of an
account that has one is written, and when an agent identity is stored. -/
theorem accountState_step (r : GatewayRuntime) (op : RuntimeOp) :
    (r.step op).accountState = r.accountState ∨
      (∃ id, op = .removeCandidate id ∧ (r.step op).scheduler.candidates.contains id = false ∧
        (r.step op).accountState = (r.tearDown id).accountState) ∨
      (∃ id state state', r.passiveQuotas[id]? = some state ∧
        (r.step op).accountState = (r.chatgptAccounts, r.passiveQuotas.insert id state')) ∨
      (∃ id credential,
        (r.step op).accountState = (r.storeAgentIdentity id credential).accountState) := by
  cases op with
  | calls ops => exact .inl (accountState_foldl_call PoolOp.quiet ops r)
  | updateSourcePolicies updates =>
    left
    rw [GatewayRuntime.step, updateSourcePolicies]
    cases r.stageSources updates with
    | none => rfl
    | some staged =>
      exact accountState_foldl_call
        (fun item : String × RuntimeCandidate × Nat => PoolOp.upsert item.2.1) staged r
  | updateAccountPolicy accountId policy =>
    left
    rw [GatewayRuntime.step, updateAccountPolicy]
    cases r.stageAccount accountId policy <;> rfl
  | removeCandidate id =>
    cases hdeferred : (r.call (.pool (.remove id))).scheduler.candidates.contains id with
    | true =>
      left
      simp only [GatewayRuntime.step, removeCandidate, hdeferred, if_true]
      rfl
    | false =>
      have hstep : r.step (.removeCandidate id) =
          (r.call (.pool (.remove id))).tearDown id := by
        simp only [GatewayRuntime.step, removeCandidate, hdeferred]
        rfl
      exact .inr (.inl ⟨id, rfl, by rw [hstep]; exact hdeferred, by rw [hstep]; rfl⟩)
  | selectAndReserve request lane =>
    left
    simp only [GatewayRuntime.step, selectAndReserve]
    split <;> rfl
  | fenceExecution id =>
    left
    simp only [GatewayRuntime.step, fenceExecution]
    split <;> rfl
  | dropFence index =>
    left
    simp only [GatewayRuntime.step, dropFence]
    split <;> rfl
  | observeCodexQuotaHeaders id accepted merge now =>
    simp only [GatewayRuntime.step, observeCodexQuotaHeaders]
    split
    · exact .inl rfl
    · split
      · exact .inl rfl
      · next state hstate =>
        split
        · exact .inl rfl
        · split
          · exact .inl rfl
          · exact .inr (.inr (.inl ⟨id, state, _, hstate, rfl⟩))
  | takePassiveQuotaSnapshot id now =>
    simp only [GatewayRuntime.step, takePassiveQuotaSnapshot]
    split
    · exact .inl rfl
    · next state hstate =>
      split
      · exact .inl rfl
      · exact .inr (.inr (.inl ⟨id, state, _, hstate, rfl⟩))
  | storeAgentIdentity id credential => exact .inr (.inr (.inr ⟨id, credential, rfl⟩))
  | _ => exact .inl rfl

end GatewayRuntime

end Zenith.Runtime
