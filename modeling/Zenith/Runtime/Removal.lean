import Zenith.Runtime.Steps

/-!
# Removing a candidate from the runtime

What `remove_candidate` promises, over whole runs of the runtime.

*Irrevocable.* After the removal of a busy candidate no request is routed to it and it is gone with its last lease
(`removal_irrevocable`), provided no policy update reaches the tombstone: `upsert` clears the retirement
(`removed_candidate_selected_again`).

*Complete.* The account state outside the scheduler is torn down by `remove_candidate` itself, and only when the
removal is not deferred. So an account is forgotten altogether exactly if it had no lease out at some call of
`remove_candidate` (`removed_account_forgotten_iff`).
-/

namespace Zenith.Runtime

open Std Zenith.Tables Zenith.Runs Zenith.Quota Zenith.Scheduler

open GatewayRuntime

section
variable {r : GatewayRuntime} {op : RuntimeOp} {id : String}

/-! ## Removal is irrevocable -/

/-- No policy update reaches the tombstone of `id`. -/
def SparesTombstone (id : String) (r : GatewayRuntime) (op : RuntimeOp) : Prop :=
  id ∈ r.scheduler.retiredCandidates → ∀ candidate ∈ r.upserts op, candidate.id ≠ id

theorem leaving_step (h : Leaving id r.pool) (hr : Sound r.pool) (hop : SparesTombstone id r op) :
    Leaving id (r.step op).pool := by
  have hstep := poolStep r op
  generalize (r.step op).pool = p at hstep
  cases hstep with
  | pools ops hops =>
    refine h.pools hr fun candidate hmem => ?_
    rcases h with ⟨hretired, _⟩ | ⟨hnone, _⟩
    · exact hop hretired candidate (hops candidate hmem)
    · -- An absent candidate cannot be read, so no policy is written to it.
      rintro rfl
      have hpresent := upserts_present (hops candidate hmem)
      rw [GatewayRuntime.scheduler, hnone] at hpresent
      cases hpresent
  | release index => exact h.step hr trivial
  | lease request lane selection hsel =>
    have hselect := @Leaving.step _ _ h hr (.pool (.quiet (.select request lane))) trivial
    exact hselect.step (hr.step _ hr.fits) (h.not_selected hsel)

/-- The leases of one candidate. -/
def leasesHeld (id : String) (p : LeasedPool) : List Lease :=
  p.leases.filter fun lease => lease.candidateId = id

theorem leases_pools (p : LeasedPool) (ops : List PoolOp) :
    (run LeaseOp.step p (ops.map .pool)).leases = p.leases := by
  induction ops generalizing p with
  | nil => rfl
  | cons op ops ih => exact ih (LeaseOp.step p (.pool op))

theorem leases_reserve (p : LeasedPool) (lease : Lease) (now : Nat) :
    (LeaseOp.step p (.reserve lease now)).leases = lease :: p.leases ∨
      (LeaseOp.step p (.reserve lease now)).leases = p.leases := by
  simp only [LeaseOp.step]
  cases (p.scheduler.reserveForLane lease.candidateId lease.model now lease.lane).2 with
  | true => exact .inl rfl
  | false => exact .inr rfl

/-- A candidate that is leaving gets no new lease. -/
theorem leasesHeld_step (h : Leaving id r.pool) (op : RuntimeOp) :
    (leasesHeld id (r.step op).pool).Sublist (leasesHeld id r.pool) := by
  have hstep := poolStep r op
  generalize (r.step op).pool = p at hstep
  unfold leasesHeld
  cases hstep with
  | pools ops hops => rw [leases_pools]
  | release index =>
    simp only [LeaseOp.step]
    split
    · exact List.Sublist.refl _
    · exact (List.eraseIdx_sublist _ _).filter _
  | lease request lane selection hsel =>
    have hne := h.not_selected hsel
    rcases leases_reserve (LeaseOp.step r.pool (.pool (.quiet (.select request lane))))
      ⟨selection.candidateId, request.model, lane⟩ request.nowMs with heq | heq <;> rw [heq]
    · rw [List.filter_cons_of_neg (by simpa using hne)]
      exact List.Sublist.refl _
    · exact List.Sublist.refl _

/-- After the removal of `id`, as long as no policy update reaches its tombstone, `id` is leaving
and has only leases that were out at the removal. -/
theorem leaving_run (hr : Sound r.pool) (after : List RuntimeOp)
    (hfit : StepsMeet GatewayRuntime.step LeasesStayInRange r (.removeCandidate id :: after))
    (hspare : StepsMeet GatewayRuntime.step (SparesTombstone id)
      (r.step (.removeCandidate id)) after) :
    Sound (run GatewayRuntime.step r (.removeCandidate id :: after)).pool ∧
      Leaving id (run GatewayRuntime.step r (.removeCandidate id :: after)).pool ∧
      (leasesHeld id (run GatewayRuntime.step r (.removeCandidate id :: after)).pool).Sublist
        (leasesHeld id r.pool) := by
  refine run_invariant (I := fun r' => Sound r'.pool ∧ Leaving id r'.pool ∧
      (leasesHeld id r'.pool).Sublist (leasesHeld id r.pool)) ?_ ?_ (hfit.2.and hspare)
  · rintro r' op ⟨hsound, hleaving, hsub⟩ ⟨hfit, hspare⟩
    exact ⟨sound_step hsound hfit, leaving_step hleaving hsound hspare,
      (leasesHeld_step hleaving op).trans hsub⟩
  · refine ⟨sound_step hr hfit.1, ?_, ?_⟩
    · rw [pool_removeCandidate]
      exact hr.leaving_remove id
    · rw [pool_removeCandidate]
      exact List.Sublist.refl _

/-- In every run with fewer than `2 ^ 32` leases out in which, after `remove_candidate`, no policy
update reaches the tombstone: the candidate is never selected again, the leases it still has are
among those that were out at the removal, and once they are released it is no longer there. -/
theorem removal_irrevocable {r₀ : GatewayRuntime} (hfresh : Fresh r₀) (id : String)
    (before after : List RuntimeOp)
    (hfit : StepsMeet GatewayRuntime.step LeasesStayInRange r₀
      (before ++ .removeCandidate id :: after))
    (hspare : StepsMeet GatewayRuntime.step (SparesTombstone id)
      ((run GatewayRuntime.step r₀ before).step (.removeCandidate id)) after) :
    let removed := run GatewayRuntime.step r₀ before
    let reached := run GatewayRuntime.step r₀ (before ++ .removeCandidate id :: after)
    (∀ request lane selection, (reached.scheduler.selectFor request lane).2 = some selection →
        selection.candidateId ≠ id) ∧
      (leasesHeld id reached.pool).Sublist (leasesHeld id removed.pool) ∧
      (leasesHeld id reached.pool = [] → reached.scheduler.candidates.get? id = none) := by
  rw [StepsMeet.append] at hfit
  obtain ⟨_, hleaving, hsub⟩ := leaving_run (sound_run hfresh.sound hfit.1) after hfit.2 hspare
  simp only [run_append]
  refine ⟨fun request lane selection hsel => hleaving.not_selected hsel, hsub, fun hnone => ?_⟩
  have hzero : leasesOf (run GatewayRuntime.step (run GatewayRuntime.step r₀ before)
      (.removeCandidate id :: after)).pool.leases id = 0 := by
    rw [leasesOf, List.countP_eq_length_filter]
    exact congrArg List.length hnone
  rcases hleaving with ⟨_, hpos⟩ | ⟨habsent, _⟩
  · exact absurd hzero (Nat.pos_iff_ne_zero.mp hpos)
  · exact habsent

end

def sampleAccount : RuntimeCandidate where
  id := "a"
  kind := .oauthAccount
  sourceId := "s"
  accountId := some "a"
  models := {"m"}
  health := .healthy

/-- A runtime with one account that serves one model. -/
def sampleRuntime : GatewayRuntime where
  pool := { scheduler := PoolScheduler.new.upsert sampleAccount }
  chatgptAccounts := (∅ : Table String ChatGptAccountExecutor).insert "a"
    { agentIdentity := some ⟨"key", "runtime", none⟩ }
  passiveQuotas := (∅ : Table String PassiveQuotaState).insert "a" { snapshot := {} }

def sampleRequest : SelectionRequest := { model := "m", allowedProtocols := [.responses], nowMs := 0 }

theorem fresh_sampleRuntime : Fresh sampleRuntime where
  leases := rfl
  activity := rfl
  halfOpen := rfl
  retiredCandidates := by decide +kernel
  active := by
    intro id account hget
    rw [sampleRuntime, ExtTreeMap.getElem?_insert] at hget
    split at hget
    · obtain rfl := Option.some.inj hget
      rfl
    · cases hget

instance (r : GatewayRuntime) (op : RuntimeOp) : Decidable (LeasesStayInRange r op) :=
  inferInstanceAs (Decidable (_ < _))

/-- A lease, the removal under it, and its release. -/
theorem removal_irrevocable_sample :
    let reached := run GatewayRuntime.step sampleRuntime
      ([.selectAndReserve sampleRequest .text] ++ .removeCandidate "a" :: [.releaseLease 0])
    leasesOf (run GatewayRuntime.step sampleRuntime
        [.selectAndReserve sampleRequest .text]).pool.leases "a" = 1 ∧
      reached.scheduler.candidates.get? "a" = none := by
  have h := removal_irrevocable fresh_sampleRuntime "a" [.selectAndReserve sampleRequest .text]
    [.releaseLease 0]
    ⟨by decide +kernel, by decide +kernel, by decide +kernel, trivial⟩
    ⟨fun _ _ hmem => (by cases hmem), trivial⟩
  exact ⟨by decide +kernel, h.2.2 (by decide +kernel)⟩

/-- The account is removed under a lease, then its policy is updated: it is selected again, and is
still there when the lease has been released. -/
theorem removed_candidate_selected_again :
    ∃ (r₀ : GatewayRuntime) (id : String) (before after : List RuntimeOp)
      (request : SelectionRequest) (lane : InFlightLane),
      Fresh r₀ ∧ leasesOf (run GatewayRuntime.step r₀ before).pool.leases id = 1 ∧
      StepsMeet GatewayRuntime.step LeasesStayInRange r₀ (before ++ .removeCandidate id :: after) ∧
      ((((run GatewayRuntime.step r₀ (before ++ .removeCandidate id :: after)).scheduler.selectFor
        request lane).2).map (·.candidateId) = some id) ∧
      leasesOf (run GatewayRuntime.step r₀
        (before ++ .removeCandidate id :: after)).pool.leases id = 0 ∧
      ((run GatewayRuntime.step r₀
        (before ++ .removeCandidate id :: after)).scheduler.candidates.get? id).isSome = true := by
  refine ⟨sampleRuntime, "a", [.selectAndReserve sampleRequest .text],
    [.updateAccountPolicy "a" {}, .releaseLease 0], sampleRequest, .text, fresh_sampleRuntime,
    ?_, ?_, ?_, ?_, ?_⟩
  · decide +kernel
  · exact ⟨by decide +kernel, by decide +kernel, by decide +kernel, by decide +kernel, trivial⟩
  · decide +kernel
  · decide +kernel
  · decide +kernel

/-- The account state of `id` has been torn down. -/
structure TornDown (id : String) (r : GatewayRuntime) : Prop where
  account : ∀ account, r.chatgptAccounts[id]? = some account →
    account.active = false ∧ account.agentIdentity = none
  passiveQuota : r.passiveQuotas[id]? = none

/-- Nothing is left of `id`, in the scheduler or outside. -/
structure Forgotten (id : String) (r : GatewayRuntime) : Prop where
  absent : r.scheduler.candidates.get? id = none
  inactive : r.accountCandidateIsActive id = false
  identity : (r.chatgptAccounts[id]?.bind fun account => account.agentIdentity) = none
  passiveQuota : r.passiveQuotas[id]? = none

section
variable {r : GatewayRuntime} {op : RuntimeOp} {id : String}

theorem tornDown_tearDown (r : GatewayRuntime) (id : String) : TornDown id (r.tearDown id) where
  account := by
    intro account hget
    simp only [tearDown, ExtTreeMap.getElem?_modify_self, Option.map_eq_some_iff] at hget
    obtain ⟨_, _, rfl⟩ := hget
    exact ⟨rfl, rfl⟩
  passiveQuota := ExtTreeMap.getElem?_erase_self

theorem TornDown.of_accountState {r r' : GatewayRuntime} (h : TornDown id r)
    (heq : r'.accountState = r.accountState) : TornDown id r' := by
  obtain ⟨haccounts, hquotas⟩ := Prod.mk.inj heq
  exact ⟨by rw [haccounts]; exact h.account, by rw [hquotas]; exact h.passiveQuota⟩

/-- What has been torn down stays so. -/
theorem TornDown.step (h : TornDown id r) (op : RuntimeOp) : TornDown id (r.step op) := by
  rcases r.accountState_step op with
    heq | ⟨other, _, _, heq⟩ | ⟨other, state, state', hstate, heq⟩ | ⟨other, credential, heq⟩
  · exact h.of_accountState heq
  · by_cases hid : other = id
    · subst hid
      exact (tornDown_tearDown r other).of_accountState heq
    · have hother : TornDown id (r.tearDown other) :=
        ⟨by simpa [tearDown, ExtTreeMap.getElem?_modify, hid] using h.account,
          by simpa [tearDown, ExtTreeMap.getElem?_erase, hid] using h.passiveQuota⟩
      exact hother.of_accountState heq
  · obtain ⟨haccounts, hquotas⟩ := Prod.mk.inj heq
    have hid : other ≠ id := by
      rintro rfl
      rw [h.passiveQuota] at hstate
      cases hstate
    refine ⟨by rw [haccounts]; exact h.account, ?_⟩
    rw [hquotas, ExtTreeMap.getElem?_insert]
    simpa [hid] using h.passiveQuota
  · have hstored : TornDown id (r.storeAgentIdentity other credential) := by
      refine ⟨?_, h.passiveQuota⟩
      intro account hget
      by_cases hid : other = id
      · subst hid
        simp only [storeAgentIdentity, ExtTreeMap.getElem?_modify_self,
          Option.map_eq_some_iff] at hget
        obtain ⟨old, hold, rfl⟩ := hget
        obtain ⟨hactive, hidentity⟩ := h.account old hold
        simp [hactive, hidentity]
      · refine h.account account ?_
        simpa [storeAgentIdentity, ExtTreeMap.getElem?_modify, hid] using hget
    exact hstored.of_accountState heq

theorem active_of_accountState {r r' : GatewayRuntime} (h : r.accountCandidateIsActive id = true)
    (heq : r'.accountState = r.accountState) : r'.accountCandidateIsActive id = true := by
  rw [accountCandidateIsActive, (Prod.mk.inj heq).1]
  exact h

/-- An account stays active until a removal of it is not deferred. -/
theorem active_step (h : r.accountCandidateIsActive id = true)
    (hdeferred : op = .removeCandidate id →
      (r.step op).scheduler.candidates.contains id = true) :
    (r.step op).accountCandidateIsActive id = true := by
  rcases r.accountState_step op with
    heq | ⟨other, hop, hgone, heq⟩ | ⟨_, _, _, _, heq⟩ | ⟨other, credential, heq⟩
  · exact active_of_accountState h heq
  · have hid : other ≠ id := by
      rintro rfl
      rw [hdeferred hop] at hgone
      cases hgone
    refine active_of_accountState ?_ heq
    simpa [accountCandidateIsActive, tearDown, ExtTreeMap.getElem?_modify, hid] using h
  · rw [accountCandidateIsActive, (Prod.mk.inj heq).1]
    exact h
  · refine active_of_accountState ?_ heq
    unfold accountCandidateIsActive at h ⊢
    by_cases hid : other = id
    · subst hid
      rw [storeAgentIdentity, ExtTreeMap.getElem?_modify_self, Option.any_map]
      cases hget : r.chatgptAccounts[other]? with
      | none => simp [hget] at h
      | some account =>
        have hactive : account.active = true := by simpa [hget] using h
        simp [hactive]
    · simpa [storeAgentIdentity, ExtTreeMap.getElem?_modify, hid] using h

/-- A lease that is out defers the removal. -/
theorem removeCandidate_deferred (hr : Sound r.pool) (hbusy : 0 < leasesOf r.pool.leases id) :
    (r.step (.removeCandidate id)).scheduler.candidates.contains id = true := by
  show (((r.step (.removeCandidate id)).pool.scheduler).candidates.get? id).isSome = true
  rw [pool_removeCandidate]
  exact hr.held.pool hr.toBalanced (.remove id) id hbusy

/-- Without a lease the removal is immediate, in the scheduler and outside. -/
theorem removeCandidate_immediate (hr : Sound r.pool) (hidle : leasesOf r.pool.leases id = 0) :
    TornDown id (r.step (.removeCandidate id)) := by
  have habsent : (r.call (.pool (.remove id))).scheduler.candidates.contains id = false := by
    rcases hr.leaving_remove id with ⟨_, hpos⟩ | ⟨hnone, _⟩
    · exact absurd hidle (Nat.pos_iff_ne_zero.mp hpos)
    · show ((LeaseOp.step r.pool (.pool (.remove id))).scheduler.candidates.get? id).isSome = false
      rw [hnone]
      rfl
  have hstep : r.step (.removeCandidate id) = (r.call (.pool (.remove id))).tearDown id := by
    simp only [GatewayRuntime.step, removeCandidate, habsent]
    rfl
  rw [hstep]
  exact tornDown_tearDown _ id

theorem Fresh.account_active (h : Fresh r) (haccount : r.chatgptAccounts.contains id = true) :
    r.accountCandidateIsActive id = true := by
  rw [← ExtTreeMap.isSome_getElem?_eq_contains, Option.isSome_iff_exists] at haccount
  obtain ⟨account, hget⟩ := haccount
  rw [accountCandidateIsActive, hget]
  exact h.active id account hget

/-- An account that no longer has a lease out and was not written back by a policy update is
forgotten altogether if and only if it had no lease out at some `remove_candidate` of it. -/
theorem removed_account_forgotten_iff {r₀ : GatewayRuntime} (hfresh : Fresh r₀) (id : String)
    (haccount : r₀.chatgptAccounts.contains id = true) (ops : List RuntimeOp)
    (hfit : StepsMeet GatewayRuntime.step LeasesStayInRange r₀ ops)
    (hspare : StepsMeet GatewayRuntime.step (SparesTombstone id) r₀ ops)
    (hreleased : leasesOf (run GatewayRuntime.step r₀ ops).pool.leases id = 0) :
    Forgotten id (run GatewayRuntime.step r₀ ops) ↔
      ∃ before after, ops = before ++ .removeCandidate id :: after ∧
        leasesOf (run GatewayRuntime.step r₀ before).pool.leases id = 0 := by
  constructor
  · intro hforgotten
    by_contra hnever
    -- Every removal was deferred, so the account has stayed active.
    have hbusy : StepsMeet GatewayRuntime.step (fun r op => op = .removeCandidate id →
        0 < leasesOf r.pool.leases id) r₀ ops := by
      refine StepsMeet.of_cuts fun before op after heq hop => ?_
      subst hop
      exact Nat.pos_of_ne_zero fun hidle => hnever ⟨before, after, heq, hidle⟩
    have hactive := run_invariant
      (I := fun r => Sound r.pool ∧ r.accountCandidateIsActive id = true)
      (fun r op h hop => ⟨sound_step h.1 hop.1, active_step h.2 fun heq =>
        heq ▸ removeCandidate_deferred h.1 (hop.2 heq)⟩)
      ⟨hfresh.sound, hfresh.account_active haccount⟩ (hfit.and hbusy)
    rw [hforgotten.inactive] at hactive
    cases hactive.2
  · rintro ⟨before, after, rfl, hidle⟩
    rw [StepsMeet.append] at hfit hspare
    have hsound := sound_run hfresh.sound hfit.1
    obtain ⟨_, hleaving, _⟩ := leaving_run hsound after hfit.2 hspare.2.2
    have htorn : TornDown id (run GatewayRuntime.step (run GatewayRuntime.step r₀ before)
        (.removeCandidate id :: after)) :=
      run_invariant_of_forall (I := TornDown id) (fun _ op h => h.step op)
        (removeCandidate_immediate hsound hidle) after
    rw [run_append] at hreleased ⊢
    refine ⟨?_, ?_, ?_, htorn.passiveQuota⟩
    · rcases hleaving with ⟨_, hpos⟩ | ⟨habsent, _⟩
      · exact absurd hreleased (Nat.pos_iff_ne_zero.mp hpos)
      · exact habsent
    · rw [accountCandidateIsActive, Option.any_eq_false]
      intro account hget
      simpa using (htorn.account account hget).1
    · rw [Option.bind_eq_none_iff]
      intro account hget
      exact (htorn.account account hget).2

end

/-- An idle account is removed. -/
theorem removed_account_forgotten_sample :
    Forgotten "a" (run GatewayRuntime.step sampleRuntime [.removeCandidate "a"]) := by
  have h := removed_account_forgotten_iff fresh_sampleRuntime "a" (by decide +kernel)
    [.removeCandidate "a"] ⟨by decide +kernel, trivial⟩
    ⟨fun _ _ hmem => (by cases hmem), trivial⟩ (by decide +kernel)
  exact h.mpr ⟨[], [], rfl, by decide +kernel⟩

/-- An account is removed under a lease and the lease is released: the scheduler has forgotten the
account, but it is still active, keeps its agent identity and has its quota entry. -/
theorem deferred_removal_leaves_account :
    ∃ (r₀ : GatewayRuntime) (id : String) (ops : List RuntimeOp), Fresh r₀ ∧
      StepsMeet GatewayRuntime.step LeasesStayInRange r₀ ops ∧
      StepsMeet GatewayRuntime.step (SparesTombstone id) r₀ ops ∧
      .removeCandidate id ∈ ops ∧
      leasesOf (run GatewayRuntime.step r₀ ops).pool.leases id = 0 ∧
      ((run GatewayRuntime.step r₀ ops).scheduler.candidates.get? id).isSome = false ∧
      (run GatewayRuntime.step r₀ ops).accountCandidateIsActive id = true ∧
      ((run GatewayRuntime.step r₀ ops).chatgptAccounts[id]?.bind (·.agentIdentity)).isSome ∧
      (run GatewayRuntime.step r₀ ops).passiveQuotas[id]?.isSome := by
  refine ⟨sampleRuntime, "a",
    [.selectAndReserve sampleRequest .text, .removeCandidate "a", .releaseLease 0],
    fresh_sampleRuntime, ?_, ?_, by simp, ?_, ?_, ?_, ?_, ?_⟩
  · exact ⟨by decide +kernel, by decide +kernel, by decide +kernel, trivial⟩
  · exact ⟨fun _ _ hmem => (by cases hmem), fun _ _ hmem => (by cases hmem),
      fun _ _ hmem => (by cases hmem), trivial⟩
  · decide +kernel
  · decide +kernel
  · decide +kernel
  · decide +kernel
  · decide +kernel

end Zenith.Runtime
