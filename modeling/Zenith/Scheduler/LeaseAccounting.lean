import Zenith.Scheduler.Leases

/-!
# What the read-outs say about leases

In every state a leased pool reaches, `inFlightCount`, `activeRequestCount` and `activeModelsFor`
report the outstanding leases exactly, and a candidate without leases has no probe marker.

The limit of one image lease per OAuth account is checked when a lease is reserved. It is an
invariant as long as no `upsert` files an OAuth account under an id that has several image leases
out; `upsert` takes the kind it is given, so an API source can be replaced by an OAuth account
while its image leases are still running.
-/

namespace Zenith.Scheduler

open Std Zenith.Text Zenith.Tables Zenith.Runs

variable {p : LeasedPool}

/-! ## Image leases of OAuth accounts -/

/-- An OAuth account has at most one image lease out. -/
def OneImageLease (p : LeasedPool) : Prop :=
  ∀ id candidate, p.scheduler.candidates.get? id = some candidate →
    candidate.kind = .oauthAccount → leasesIn p.leases id .image ≤ 1

/-- An upsert files an OAuth account only under an id with at most one image lease out. -/
def KindsFit (p : LeasedPool) : LeaseOp → Prop
  | .pool (.upsert candidate) =>
    candidate.kind = .oauthAccount → leasesIn p.leases candidate.id .image ≤ 1
  | _ => True

theorem OneImageLease.pool (h : OneImageLease p) (op : PoolOp) (hfit : KindsFit p (.pool op)) :
    OneImageLease { p with scheduler := op.step p.scheduler } := by
  intro id candidate hget hkind
  have hid := CandidateTable.get?_id hget
  rcases p.scheduler.kind_pool op hget with ⟨old, hold, heq⟩ | rfl
  · exact h id old hold (heq.trans hkind)
  · rw [← hid]
    exact hfit hkind

/-- A reservation on the image lane of an OAuth account needs the lane to be free. -/
theorem OneImageLease.reserve (h : OneImageLease p) (hp : Accounted p) (lease : Lease)
    (now : Nat) : OneImageLease (LeaseOp.step p (.reserve lease now)) := by
  simp only [LeaseOp.step]
  have hnew : ∀ candidate, p.scheduler.candidates.get? lease.candidateId = some candidate →
      p.scheduler.laneAllows candidate lease.lane = true →
      ∀ id c, p.scheduler.candidates.get? id = some c → c.kind = .oauthAccount →
        leasesIn (lease :: p.leases) id .image ≤ 1 := by
    intro candidate hget hlane id c hc hkind
    rw [leasesIn_cons]
    split
    · next hk =>
      obtain ⟨rfl, himage⟩ := hk
      have hcand : c = candidate := Option.some.inj (hc.symm.trans hget)
      have hfree : p.scheduler.inFlightCount candidate.id .image < maxOauthImageInFlight := by
        simpa [PoolScheduler.laneAllows, ← hcand, hkind, himage] using hlane
      rw [CandidateTable.get?_id hget, PoolScheduler.inFlightCount, hp.counts.inFlight,
        maxOauthImageInFlight] at hfree
      omega
    · exact h id c hc hkind
  rcases p.scheduler.reserveForLane_cases lease.candidateId lease.model now lease.lane with
    heq | ⟨candidate, hget, hlane, ⟨heq, _⟩ | ⟨scope, _, _, _, heq⟩⟩
  · rw [heq]
    exact h
  · rw [heq]
    exact hnew candidate hget hlane
  · rw [heq]
    exact hnew candidate hget hlane

theorem OneImageLease.release (h : OneImageLease p) (hp : Accounted p) (index : Nat) :
    OneImageLease (LeaseOp.step p (.release index)) := by
  simp only [LeaseOp.step]
  cases hget : p.leases[index]? with
  | none => exact h
  | some lease =>
    have hperm := perm_of_getElem? hget
    -- Fewer leases, and no candidate that was not there.
    have hfewer : ∀ id, leasesIn (p.leases.eraseIdx index) id .image ≤ leasesIn p.leases id .image := by
      intro id
      rw [leasesIn, leasesIn, hperm.countP_eq, List.countP_cons]
      exact Nat.le_add_right _ _
    intro id candidate hc hkind
    simp only at hc ⊢
    rw [releaseForLane_of_counts (hp.counts.perm hperm)] at hc
    unfold PoolScheduler.finalizeRetiredIfIdle at hc
    split at hc
    · simp only [PoolScheduler.removeNow, CandidateTable.get?_erase] at hc
      split at hc
      · cases hc
      · exact Nat.le_trans (hfewer id) (h id candidate hc hkind)
    · exact Nat.le_trans (hfewer id) (h id candidate hc hkind)

theorem oneImageLease_run {ops : List LeaseOp} (hfit : StepsMeet LeaseOp.step LeasesFit {} ops)
    (hkinds : StepsMeet LeaseOp.step KindsFit {} ops) :
    OneImageLease (run LeaseOp.step {} ops) := by
  have hstep : ∀ p op, Balanced p ∧ OneImageLease p → LeasesFit p op ∧ KindsFit p op →
      Balanced (LeaseOp.step p op) ∧ OneImageLease (LeaseOp.step p op) := by
    rintro p op ⟨hp, himage⟩ ⟨hfit, hkinds⟩
    refine ⟨hp.step op hfit, ?_⟩
    cases op with
    | pool op => exact himage.pool op hkinds
    | reserve lease now => exact himage.reserve hp.toAccounted lease now
    | release index => exact himage.release hp.toAccounted index
  have hstart : OneImageLease {} := by
    intro id candidate hget
    cases (CandidateTable.get?_empty id).symm.trans hget
  exact (run_invariant hstep ⟨Balanced.start, hstart⟩ (hfit.and hkinds)).2

/-! ## Read-outs -/

/-- How many leases of a candidate are out for a lower-cased model, over both lanes. -/
def leasesFor (leases : List Lease) (id model : String) : Nat :=
  leases.countP fun lease => lease.candidateId = id ∧ asciiLower lease.model = model

theorem leasesOn_add (leases : List Lease) (id model : String) :
    leasesOn leases id .text model + leasesOn leases id .image model =
      leasesFor leases id model := by
  induction leases with
  | nil => rfl
  | cons lease leases ih =>
    have hcons : leasesFor (lease :: leases) id model = leasesFor leases id model +
        if lease.candidateId = id ∧ asciiLower lease.model = model then 1 else 0 := by
      simp [leasesFor, List.countP_cons]
    rw [leasesOn_cons, leasesOn_cons, hcons, ← ih]
    cases lease.lane <;> simp <;> omega

theorem Balanced.activeModels (h : Balanced p) (id model : String) (n : Nat) :
    (model, n) ∈ p.scheduler.activeModelsFor id ↔
      model ≠ "" ∧ n = leasesFor p.leases id model ∧ 0 < n := by
  have hsum : ∀ model, p.scheduler.activity.requestCount id .text model +
      p.scheduler.activity.requestCount id .image model = leasesFor p.leases id model := by
    intro model
    rw [h.counts.requests, h.counts.requests, leasesOn_add]
  have hlt : ∀ model, p.scheduler.activity.requestCount id .text model +
      p.scheduler.activity.requestCount id .image model < 2 ^ 32 := by
    intro model
    rw [hsum]
    exact Nat.lt_of_le_of_lt List.countP_le_length h.fits
  rw [PoolScheduler.activeModelsFor, SchedulerActivity.mem_activeModelsFor hlt, hsum]

/-- Without a lease there is no probe marker that could lock the candidate out. -/
theorem Balanced.no_marker (h : Balanced p) {id : String} (hnone : leasesOf p.leases id = 0)
    (scope : String) : (id, scope) ∉ p.scheduler.halfOpen := by
  intro hmem
  obtain ⟨lease, hlease, hid, _⟩ := h.probes _ hmem
  have := List.countP_eq_zero.mp hnone lease hlease
  simp [hid] at this

/-- In every run with fewer than `2 ^ 32` leases out, in-flight counts, active request counts and
active models report exactly the outstanding leases, and a candidate without leases has no probe
marker. If moreover no upsert files an OAuth account over several image leases, an OAuth account
has at most one image lease out. -/
theorem lease_accounting (ops : List LeaseOp)
    (hfit : StepsMeet LeaseOp.step LeasesFit {} ops) (id : String) :
    (∀ lane, (run LeaseOp.step {} ops).scheduler.inFlightCount id lane =
        leasesIn (run LeaseOp.step {} ops).leases id lane) ∧
      (run LeaseOp.step {} ops).scheduler.activeRequestCount id =
        leasesOf (run LeaseOp.step {} ops).leases id ∧
      (∀ model n, (model, n) ∈ (run LeaseOp.step {} ops).scheduler.activeModelsFor id ↔
        model ≠ "" ∧ n = leasesFor (run LeaseOp.step {} ops).leases id model ∧ 0 < n) ∧
      (leasesOf (run LeaseOp.step {} ops).leases id = 0 →
        ∀ scope, (id, scope) ∉ (run LeaseOp.step {} ops).scheduler.halfOpen) ∧
      (StepsMeet LeaseOp.step KindsFit {} ops →
        ∀ candidate, (run LeaseOp.step {} ops).scheduler.candidates.get? id = some candidate →
          candidate.kind = .oauthAccount →
          leasesIn (run LeaseOp.step {} ops).leases id .image ≤ 1) := by
  have h := balanced_run hfit
  refine ⟨h.counts.inFlight id, h.counts.activeRequestCount h.fits id, h.activeModels id,
    h.no_marker, ?_⟩
  intro hkinds candidate hget hkind
  exact oneImageLease_run hfit hkinds id candidate hget hkind

/-- One account, a text and an image lease on one model in two spellings. -/
def sampleLeaseOps : List LeaseOp :=
  [.pool (.upsert { id := "a", kind := .oauthAccount, sourceId := "s" }),
    .reserve ⟨"a", "GPT", .text⟩ 0, .reserve ⟨"a", "gpt", .image⟩ 0]

theorem lease_accounting_sample :
    StepsMeet LeaseOp.step LeasesFit {} sampleLeaseOps ∧
      StepsMeet LeaseOp.step KindsFit {} sampleLeaseOps ∧
      (run LeaseOp.step {} sampleLeaseOps).leases =
        [⟨"a", "gpt", .image⟩, ⟨"a", "GPT", .text⟩] ∧
      (run LeaseOp.step {} sampleLeaseOps).scheduler.activeRequestCount "a" = 2 ∧
      ("gpt", 2) ∈ (run LeaseOp.step {} sampleLeaseOps).scheduler.activeModelsFor "a" := by
  have hfit : StepsMeet LeaseOp.step LeasesFit {} sampleLeaseOps :=
    ⟨by unfold LeasesFit; decide +kernel, by unfold LeasesFit; decide +kernel,
      by unfold LeasesFit; decide +kernel, trivial⟩
  have hleases : (run LeaseOp.step {} sampleLeaseOps).leases =
      [⟨"a", "gpt", .image⟩, ⟨"a", "GPT", .text⟩] := by decide +kernel
  obtain ⟨_, hactive, hmodels, _, _⟩ := lease_accounting sampleLeaseOps hfit "a"
  refine ⟨hfit, ⟨fun _ => by decide +kernel, trivial, trivial, trivial⟩, hleases, ?_, ?_⟩
  · rw [hactive, hleases]
    decide +kernel
  · rw [hmodels, hleases]
    decide +kernel

/-- An API source takes two image leases and is then replaced by an OAuth account of the same id:
the account has two image leases out. -/
theorem oauth_account_with_two_image_leases :
    ∃ ops : List LeaseOp, StepsMeet LeaseOp.step LeasesFit {} ops ∧
      ((run LeaseOp.step {} ops).scheduler.candidates.get? "a").map (·.kind) =
        some .oauthAccount ∧
      leasesIn (run LeaseOp.step {} ops).leases "a" .image = 2 := by
  refine ⟨[.pool (.upsert { id := "a", kind := .apiSource, sourceId := "s" }),
    .reserve ⟨"a", "m", .image⟩ 0, .reserve ⟨"a", "m", .image⟩ 0,
    .pool (.upsert { id := "a", kind := .oauthAccount, sourceId := "s" })], ?_, ?_, ?_⟩
  · exact ⟨by unfold LeasesFit; decide +kernel, by unfold LeasesFit; decide +kernel,
      by unfold LeasesFit; decide +kernel, by unfold LeasesFit; decide +kernel, trivial⟩
  · decide +kernel
  · decide +kernel

end Zenith.Scheduler
