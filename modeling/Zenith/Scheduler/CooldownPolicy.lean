import Zenith.Scheduler.Operations

/-!
# The transient cooldown policy

With `keepLastCandidateAvailable` a transient cooldown is refused to the last candidate that is
still eligible. The code counts the eligible candidates and refuses when there is at most one,
whether or not the failing candidate is the one counted. A candidate that fails its own half-open
probe is not eligible while the probe runs, so with one other eligible candidate the count is one
and the cooldown is refused although the other candidate would remain available.

`transient_cooldown_accepted_iff` says exactly when the answer is the intended one, "accepted if
and only if another candidate is eligible".
-/

namespace Zenith.Scheduler

open Std Zenith.Text Zenith.Tables Zenith.Runs

namespace PoolScheduler

variable (s : PoolScheduler)

/-! ## The policy -/

/-- How many candidates other than `candidateId` are eligible for the failed request. -/
def otherEligible (candidateId : String) (request : CooldownRequest) : Nat :=
  s.candidates.values.countP fun candidate =>
    decide (candidate.id ≠ candidateId) &&
      s.isEligible candidate request.policyModel request.allowedProtocols request.requestScope
        request.nowMs

theorem otherEligible_pos {id : String} {request : CooldownRequest} :
    0 < s.otherEligible id request ↔
      ∃ other ∈ s.candidates.values, other.id ≠ id ∧
        s.isEligible other request.policyModel request.allowedProtocols request.requestScope
          request.nowMs = true := by
  simp only [otherEligible, List.countP_pos_iff, Bool.and_eq_true, decide_eq_true_eq]

/-- A candidate past the failure threshold is cooled down exactly when at least two candidates are
eligible, itself included. -/
theorem transientCooldown_accepted {id : String} {candidate : RuntimeCandidate}
    {request : CooldownRequest} (hkeep : s.keepLastCandidateAvailable = true)
    (hget : s.candidates.get? id = some candidate)
    (hfailures : s.cooldownAfterFailures ≤ candidate.consecutiveFailures)
    (hreason : request.reason = .transient) :
    (s.setCooldownWithReasonForModelAt id request).2 = true ↔
      2 ≤ s.otherEligible id request +
        if s.isEligible candidate request.policyModel request.allowedProtocols
          request.requestScope request.nowMs then 1 else 0 := by
  have hcount := countP_eq_others_add s.candidates.nodup_values
    (CandidateTable.mem_values.mpr (by rw [CandidateTable.get?_id hget]; exact hget))
    fun c => s.isEligible c request.policyModel request.allowedProtocols request.requestScope
      request.nowMs
  rw [CandidateTable.get?_id hget] at hcount
  rw [otherEligible, ← hcount, List.countP_eq_length_filter]
  unfold setCooldownWithReasonForModelAt setCooldownWithReasonInner transientCooldownAllowed
    isLastApplicableCandidate
  simp only [hreason, hget, hkeep, CandidateTable.contains, Option.isSome_some, Bool.not_true,
    Bool.false_eq_true, if_false, if_neg (Nat.not_lt.mpr hfailures), decide_true, Bool.true_and,
    Bool.not_not, decide_eq_true_eq]
  split
  · next hfew => simp only [Bool.false_eq_true, false_iff]; omega
  · next hmany => simp only [true_iff]; omega

/-- The cooldown of a candidate past the failure threshold is accepted if and only if another
candidate is eligible, except where the candidate itself is not eligible and exactly one other
is. -/
theorem transient_cooldown_accepted_iff {id : String} {candidate : RuntimeCandidate}
    {request : CooldownRequest} (hkeep : s.keepLastCandidateAvailable = true)
    (hget : s.candidates.get? id = some candidate)
    (hfailures : s.cooldownAfterFailures ≤ candidate.consecutiveFailures)
    (hreason : request.reason = .transient) :
    ((s.setCooldownWithReasonForModelAt id request).2 = true ↔
        ∃ other ∈ s.candidates.values, other.id ≠ id ∧
          s.isEligible other request.policyModel request.allowedProtocols request.requestScope
            request.nowMs = true) ↔
      ¬ (s.isEligible candidate request.policyModel request.allowedProtocols request.requestScope
          request.nowMs = false ∧ s.otherEligible id request = 1) := by
  rw [s.transientCooldown_accepted hkeep hget hfailures hreason, ← otherEligible_pos]
  cases s.isEligible candidate request.policyModel request.allowedProtocols request.requestScope
    request.nowMs with
  | true =>
    simp only [if_true, Bool.true_eq_false, false_and, not_false_iff, iff_true]
    omega
  | false =>
    simp only [Bool.false_eq_true, if_false, true_and]
    omega

/-! ## The two sides of the condition -/

/-- Two sources for one model; `a` has failed once. -/
def failedSource : PoolScheduler :=
  run SchedulerOp.step PoolScheduler.new
    [.pool (.quiet (.setCooldownPolicy 1 true)),
      .pool (.upsert { id := "a", kind := .apiSource, sourceId := "a", models := {"m"} }),
      .pool (.upsert { id := "b", kind := .apiSource, sourceId := "b", models := {"m"} }),
      .pool (.quiet (.recordFailure "a"))]

/-- Two sources for one model. The cooldown of `a` has expired and `a` is being probed; the probe
has failed once. -/
def failedProbe : PoolScheduler :=
  run SchedulerOp.step PoolScheduler.new
    [.pool (.quiet (.setCooldownPolicy 1 true)),
      .pool (.upsert { id := "a", kind := .apiSource, sourceId := "a", models := {"m"} }),
      .pool (.upsert { id := "b", kind := .apiSource, sourceId := "b", models := {"m"} }),
      .pool (.cool "a" { scope := "m", policyModel := "m", retryAtMs := 5, reason := .transient }
        false),
      .reserve "a" "m" 10 .text,
      .pool (.quiet (.recordFailure "a"))]

/-- The cooldown that the failed request asks for. -/
def failedRequest : CooldownRequest :=
  { scope := "m", policyModel := "m", allowedProtocols := [.responses], retryAtMs := 100
    reason := .transient, nowMs := 10 }

/-- `a` is eligible itself, so the policy answers as intended. -/
theorem failed_source_cooled_down :
    (failedSource.setCooldownWithReasonForModelAt "a" failedRequest).2 = true ↔
      ∃ other ∈ failedSource.candidates.values, other.id ≠ "a" ∧
        failedSource.isEligible other failedRequest.policyModel failedRequest.allowedProtocols
          failedRequest.requestScope failedRequest.nowMs = true := by
  have hcandidate : (failedSource.candidates.get? "a").any (fun candidate =>
      decide (failedSource.cooldownAfterFailures ≤ candidate.consecutiveFailures) &&
        failedSource.isEligible candidate failedRequest.policyModel failedRequest.allowedProtocols
          failedRequest.requestScope failedRequest.nowMs) = true := by decide +kernel
  cases hget : failedSource.candidates.get? "a" with
  | none =>
    rw [hget] at hcandidate
    cases hcandidate
  | some candidate =>
    rw [hget, Option.any_some, Bool.and_eq_true, decide_eq_true_eq] at hcandidate
    obtain ⟨hfailures, heligible⟩ := hcandidate
    refine (failedSource.transient_cooldown_accepted_iff (by decide +kernel) hget hfailures
      rfl).mpr ?_
    rintro ⟨hineligible, _⟩
    rw [heligible] at hineligible
    cases hineligible

/-- The failed probe of `a` does not re-open its cooldown although `b` is eligible. -/
theorem failed_probe_not_cooled_down :
    failedProbe.keepLastCandidateAvailable = true ∧
      (failedProbe.candidates.get? "a").any (fun candidate =>
        decide (failedProbe.cooldownAfterFailures ≤ candidate.consecutiveFailures)) = true ∧
      (∃ other ∈ failedProbe.candidates.values, other.id ≠ "a" ∧
        failedProbe.isEligible other failedRequest.policyModel failedRequest.allowedProtocols
          failedRequest.requestScope failedRequest.nowMs = true) ∧
      (failedProbe.setCooldownWithReasonForModelAt "a" failedRequest).2 = false := by
  refine ⟨by decide +kernel, by decide +kernel, ?_, by decide +kernel⟩
  rw [← otherEligible_pos]
  decide +kernel

end PoolScheduler

end Zenith.Scheduler
