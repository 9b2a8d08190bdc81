import Zenith.Scheduler.SelectionContract

/-!
# Retry-after times

`allApplicableCooldown` tells a caller how long no candidate can be selected. The reported time is
sound: until then no selection for the same request succeeds. The loop reports the earliest retry
time over the applicable candidates, and a selectable candidate is always an applicable one, now
and, because the reserve of the protected candidate only tightens with time, at every later instant
before the reported time.
-/

namespace Zenith.Scheduler

open Std Zenith.Text Zenith.Tables

namespace PoolScheduler

variable (s : PoolScheduler) (request : SelectionRequest)

/-- The candidates the loop does not skip. -/
def Applicable (candidate : RuntimeCandidate) : Prop :=
  candidate.id ∉ request.tried ∧ s.quotaReserveAllows candidate request.nowMs = true ∧
    candidate.isCatalogVisible request.model request.allowedProtocols request.scope = true

variable {candidate : RuntimeCandidate}

theorem retryAt_gt {retryAt : Nat}
    (h : candidate.retryAtIfConfigured request.model request.allowedProtocols request.scope
      request.nowMs = some retryAt) : request.nowMs < retryAt := by
  unfold RuntimeCandidate.retryAtIfConfigured at h
  split at h
  · obtain ⟨_, _, _, hlt⟩ := activeRetryAt_mem h
    exact hlt
  · cases h

/-- The loop: the reported time is in the future, not later than the time carried in, and every
applicable candidate still to come cools down at least until then. -/
theorem applicableCooldowns_spec {candidates : List RuntimeCandidate} {carried : Option Nat}
    {reason reason' : CooldownReason} {retryAt : Nat}
    (hcarried : ∀ time, carried = some time → request.nowMs < time)
    (h : s.applicableCooldowns request candidates carried reason = some (retryAt, reason')) :
    request.nowMs < retryAt ∧ (∀ time, carried = some time → retryAt ≤ time) ∧
      ∀ candidate ∈ candidates, s.Applicable request candidate →
        ∃ time, candidate.retryAtIfConfigured request.model request.allowedProtocols request.scope
          request.nowMs = some time ∧ retryAt ≤ time := by
  induction candidates generalizing carried reason with
  | nil =>
    simp only [applicableCooldowns, Option.map_eq_some_iff, Prod.mk.injEq] at h
    obtain ⟨time, htime, rfl, _⟩ := h
    refine ⟨hcarried time htime, ?_, fun candidate hmem => absurd hmem List.not_mem_nil⟩
    intro other hother
    exact Nat.le_of_eq (Option.some.inj (htime.symm.trans hother))
  | cons candidate candidates ih =>
    simp only [applicableCooldowns] at h
    split at h
    · next hskip =>
      obtain ⟨hlt, hle, hrest⟩ := ih hcarried h
      refine ⟨hlt, hle, ?_⟩
      intro other hmem happ
      rcases List.mem_cons.mp hmem with rfl | hmem
      · -- A skipped candidate is not applicable.
        obtain ⟨huntried, hreserve, hvisible⟩ := happ
        rcases hskip with htried | hfalse | hfalse
        · exact absurd htried huntried
        · rw [hreserve] at hfalse
          cases hfalse
        · rw [hvisible] at hfalse
          cases hfalse
      · exact hrest other hmem happ
    · split at h
      · cases h
      · next time htime =>
        have hnow := retryAt_gt request htime
        have hstep : ∀ t, some ((carried.map fun current => min current time).getD time) = some t →
            request.nowMs < t ∧ t ≤ time ∧ ∀ c, carried = some c → t ≤ c := by
          intro t ht
          cases carried with
          | none =>
            have : time = t := Option.some.inj ht
            exact ⟨this ▸ hnow, Nat.le_of_eq this.symm, fun c hc => by cases hc⟩
          | some current =>
            have : min current time = t := Option.some.inj ht
            have hcur := hcarried current rfl
            refine ⟨by omega, by omega, fun c hc => ?_⟩
            have : current = c := Option.some.inj hc
            omega
        obtain ⟨hlt, hle, hrest⟩ := ih (fun t ht => (hstep t ht).1) h
        obtain ⟨_, htime', hcarry⟩ := hstep _ rfl
        have hmin := hle _ rfl
        refine ⟨hlt, fun c hc => Nat.le_trans hmin (hcarry c hc), ?_⟩
        intro other hmem happ
        rcases List.mem_cons.mp hmem with rfl | hmem
        · exact ⟨time, htime, Nat.le_trans hmin htime'⟩
        · exact hrest other hmem happ

/-- The reserve of the protected candidate only tightens with time: its quota gets stale. -/
theorem quotaReserveAllows_antitone {now later : Nat}
    (hle : now ≤ later) (h : s.quotaReserveAllows candidate later = true) :
    s.quotaReserveAllows candidate now = true := by
  unfold quotaReserveAllows at h ⊢
  split at h
  · rfl
  · split at h
    · split at h
      · cases h
      · next hfresh =>
        rw [if_neg]
        · exact h
        · intro hstale
          refine hfresh ?_
          cases hupdated : candidate.quotaUpdatedAtMs with
          | none =>
            rw [hupdated] at hstale
            cases hstale
          | some updated =>
            simp only [hupdated, Option.any_some, decide_eq_true_eq] at hstale ⊢
            omega
    · cases h

/-- A candidate that is selectable at a later instant is applicable now and has no cooldown that
reaches beyond that instant. -/
theorem applicable_of_selectable {lane : InFlightLane} {later : Nat}
    (hle : request.nowMs ≤ later)
    (h : s.selectable { request with nowMs := later } lane candidate = true) :
    s.Applicable request candidate ∧
      activeRetryAt candidate.cooldowns request.model later = none := by
  simp only [selectable, isEligible, RuntimeCandidate.isEligible, RuntimeCandidate.isVisible,
    Bool.and_eq_true, decide_eq_true_eq, Option.isNone_iff_eq_none] at h
  obtain ⟨⟨huntried, _⟩, ⟨⟨_, hreserve⟩, ⟨hvisible, _⟩, hcool⟩, _⟩ := h
  exact ⟨⟨huntried, s.quotaReserveAllows_antitone hle hreserve, hvisible⟩, hcool⟩

/-- A candidate cooling down until `time` is not selectable before. -/
theorem not_selectable_of_retryAt {lane : InFlightLane}
    {later time : Nat} (hle : request.nowMs ≤ later) (hlt : later < time)
    (htime : candidate.retryAtIfConfigured request.model request.allowedProtocols request.scope
      request.nowMs = some time) :
    ¬ s.selectable { request with nowMs := later } lane candidate = true := by
  intro hsel
  obtain ⟨⟨_, _, hvisible⟩, hcool⟩ := s.applicable_of_selectable request hle hsel
  rw [RuntimeCandidate.retryAtIfConfigured, if_pos hvisible] at htime
  exact activeRetryAt_isSome_of_lt htime hlt hcool

/-- The cooldown reported for a bound response is one of its owner. -/
theorem allApplicableCooldown_bound {owner : String} {time : Nat} {reason : CooldownReason}
    (howner : s.boundOwner request = some owner)
    (h : (s.allApplicableCooldown request).2 = some (time, reason)) :
    ∃ candidate, s.candidates.get? owner = some candidate ∧
      candidate.retryAtIfConfigured request.model request.allowedProtocols request.scope
        request.nowMs = some time := by
  unfold boundOwner at howner
  unfold allApplicableCooldown at h
  cases hkey : request.responseAffinityKey with
  | none => simp [hkey] at howner
  | some key =>
    simp only [hkey, Option.bind_some] at howner
    simp only [hkey, AffinityCache.get_snd, howner, Option.bind_some, Option.map_eq_some_iff,
      Prod.exists, Prod.mk.injEq] at h
    obtain ⟨candidate, retryAt, hretry, rfl, _⟩ := h
    unfold ownerRetryAt at hretry
    split at hretry
    · cases hretry
    · split at hretry
      · cases hretry
      · next found hfound =>
        split at hretry
        · cases hretry
        · obtain ⟨t, ht, heq⟩ := Option.map_eq_some_iff.mp hretry
          obtain ⟨rfl, rfl⟩ := Prod.mk.inj heq
          exact ⟨found, hfound, ht⟩

/-- Asking for the cooldown does not change who owns the response. -/
theorem boundOwner_allApplicableCooldown :
    (s.allApplicableCooldown request).1.boundOwner request = s.boundOwner request := by
  unfold boundOwner allApplicableCooldown
  cases request.responseAffinityKey with
  | none => rfl
  | some key => exact s.responseAffinity.owner?_prune key request.nowMs

/-- Retry-after is sound. Without a response key the reported time is in the future, and until then
no selection for the same request succeeds on either lane. With a live response binding, a reported
time means that the selection fails now. -/
theorem retry_after_sound (time : Nat) (reason : CooldownReason)
    (h : (s.allApplicableCooldown request).2 = some (time, reason)) :
    (request.responseAffinityKey = none →
      request.nowMs < time ∧
      ∀ later lane, request.nowMs ≤ later → later < time →
        ((s.allApplicableCooldown request).1.selectFor { request with nowMs := later } lane).2 =
          none) ∧
    (∀ owner, s.boundOwner request = some owner →
      ∀ lane, ((s.allApplicableCooldown request).1.selectFor request lane).2 = none) := by
  constructor
  · intro hkey
    have hstate : (s.allApplicableCooldown request).1 = s := by
      rw [allApplicableCooldown, hkey]
    rw [hstate]
    simp only [allApplicableCooldown, hkey] at h
    obtain ⟨hlt, _, hall⟩ :=
      s.applicableCooldowns_spec request (fun _ hnone => by cases hnone) h
    refine ⟨hlt, fun later lane hle hbefore => ?_⟩
    have hunbound : s.boundOwner { request with nowMs := later } = none := by
      simp [boundOwner, hkey]
    rw [← Option.not_isSome_iff_eq_none]
    intro hsome
    obtain ⟨candidate, hmem, hsel⟩ := (s.selectFor_unbound_isSome _ lane hunbound).mp hsome
    obtain ⟨happ, _⟩ := s.applicable_of_selectable request hle hsel
    obtain ⟨candidateTime, htime, hearliest⟩ := hall candidate hmem happ
    exact s.not_selectable_of_retryAt request hle (Nat.lt_of_lt_of_le hbefore hearliest) htime hsel
  · intro owner howner lane
    obtain ⟨candidate, hget, htime⟩ := s.allApplicableCooldown_bound request howner h
    have hafter := (s.boundOwner_allApplicableCooldown request).trans howner
    rw [← Option.not_isSome_iff_eq_none]
    intro hsome
    obtain ⟨found, hfound, hsel⟩ :=
      (selectFor_bound (s.allApplicableCooldown request).1 request lane hafter).2.mp hsome
    have hcandidates : (s.allApplicableCooldown request).1.candidates = s.candidates := by
      unfold allApplicableCooldown
      split <;> rfl
    rw [hcandidates, hget] at hfound
    cases hfound
    exact not_selectable_of_retryAt _ request (Nat.le_refl _) (retryAt_gt request htime) htime hsel

/-- One API source whose only model cools down until 10. -/
def coolingPool : PoolScheduler :=
  (PoolScheduler.new.upsert
    { id := "a", kind := .apiSource, sourceId := "s", models := {"m"},
      cooldowns := (∅ : Table String Nat).insert "m" 10 })

def coolingRequest (nowMs : Nat) : SelectionRequest :=
  { model := "m", allowedProtocols := [.responses], nowMs := nowMs }

theorem retry_after_sound_cooling :
    (coolingPool.allApplicableCooldown (coolingRequest 3)).2 = some (10, .transient) ∧
      ((coolingPool.allApplicableCooldown (coolingRequest 3)).1.selectFor (coolingRequest 9)
        .text).2 = none := by
  have h : (coolingPool.allApplicableCooldown (coolingRequest 3)).2 = some (10, .transient) := by
    decide +kernel
  obtain ⟨_, hnone⟩ := (retry_after_sound coolingPool (coolingRequest 3) 10 .transient h).1 rfl
  exact ⟨h, hnone 9 .text (by decide) (by decide)⟩

end PoolScheduler

end Zenith.Scheduler
