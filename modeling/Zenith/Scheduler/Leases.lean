import Zenith.Scheduler.NoDangling

/-!
# Lease accounting

A `CandidateLease` releases its reservation exactly once, with the candidate, model and lane it was
reserved with. `LeasedPool` is a scheduler together with the leases that are out; `LeaseOp` are the
steps it takes: any scheduler operation, a reservation, which hands out a lease when it succeeds,
and the release of an outstanding lease.

`Counts` says that the activity counters count the outstanding leases; `Accounted` adds that every
probe marker belongs to one. Both survive every step, and the read-outs of the scheduler follow
from them.
-/

namespace Zenith.Scheduler

open Std Zenith.Text Zenith.Tables Zenith.Runs

/-! ## Scheduler and outstanding leases -/

structure Lease where
  candidateId : String
  model : String
  lane : InFlightLane
deriving DecidableEq, Repr

structure LeasedPool where
  scheduler : PoolScheduler := .new
  leases : List Lease := []

inductive LeaseOp
  | pool (op : PoolOp)
  | reserve (lease : Lease) (nowMs : Nat)
  | release (index : Nat)

/-- A release names one of the outstanding leases by its position. -/
def LeaseOp.step (p : LeasedPool) : LeaseOp → LeasedPool
  | .pool op => { p with scheduler := op.step p.scheduler }
  | .reserve lease now =>
    let reserved := p.scheduler.reserveForLane lease.candidateId lease.model now lease.lane
    ⟨reserved.1, if reserved.2 then lease :: p.leases else p.leases⟩
  | .release index =>
    match p.leases[index]? with
    | none => p
    | some lease =>
      ⟨(p.scheduler.releaseForLane lease.candidateId (some lease.model) lease.lane).1,
        p.leases.eraseIdx index⟩

/-- How many leases of a candidate are out. -/
def leasesOf (leases : List Lease) (id : String) : Nat :=
  leases.countP fun lease => lease.candidateId = id

def leasesIn (leases : List Lease) (id : String) (lane : InFlightLane) : Nat :=
  leases.countP fun lease => lease.candidateId = id ∧ lease.lane = lane

def leasesOn (leases : List Lease) (id : String) (lane : InFlightLane) (model : String) : Nat :=
  leases.countP fun lease =>
    lease.candidateId = id ∧ lease.lane = lane ∧ asciiLower lease.model = model

theorem leasesOf_cons (lease : Lease) (leases : List Lease) (id : String) :
    leasesOf (lease :: leases) id =
      leasesOf leases id + if lease.candidateId = id then 1 else 0 := by
  simp [leasesOf, List.countP_cons]

theorem leasesIn_cons (lease : Lease) (leases : List Lease) (id : String) (lane : InFlightLane) :
    leasesIn (lease :: leases) id lane =
      leasesIn leases id lane + if lease.candidateId = id ∧ lease.lane = lane then 1 else 0 := by
  simp [leasesIn, List.countP_cons]

theorem leasesOn_cons (lease : Lease) (leases : List Lease) (id : String) (lane : InFlightLane)
    (model : String) :
    leasesOn (lease :: leases) id lane model = leasesOn leases id lane model +
      if lease.candidateId = id ∧ lease.lane = lane ∧ asciiLower lease.model = model then 1
      else 0 := by
  simp [leasesOn, List.countP_cons]

theorem leasesIn_add (leases : List Lease) (id : String) :
    leasesIn leases id .text + leasesIn leases id .image = leasesOf leases id := by
  induction leases with
  | nil => rfl
  | cons lease leases ih =>
    rw [leasesIn_cons, leasesIn_cons, leasesOf_cons, ← ih]
    cases lease.lane <;> simp <;> omega

theorem perm_of_getElem? {leases : List Lease} {index : Nat} {lease : Lease}
    (h : leases[index]? = some lease) : leases.Perm (lease :: leases.eraseIdx index) := by
  obtain ⟨hlt, rfl⟩ := List.getElem?_eq_some_iff.mp h
  exact (List.getElem_cons_eraseIdx_perm hlt).symm

/-! ## Counters -/

/-- The activity counts the leases, by lane and by lane and lower-cased model. -/
structure Counts (a : SchedulerActivity) (leases : List Lease) : Prop where
  inFlight : ∀ id lane, a.inFlightCount id lane = leasesIn leases id lane
  requests : ∀ id lane model, a.requestCount id lane model = leasesOn leases id lane model

namespace Counts

variable {a a' : SchedulerActivity} {leases rest : List Lease}

theorem empty : Counts {} [] where
  inFlight := by
    intro id lane
    cases lane <;> simp [SchedulerActivity.inFlightCount, SchedulerActivity.inFlightMap, counter,
      leasesIn]
  requests := by
    intro id lane model
    simp [SchedulerActivity.requestCount, SchedulerActivity.modelsAt, counter, leasesOn]

theorem congr (h : Counts a leases)
    (hin : ∀ id lane, a'.inFlightCount id lane = a.inFlightCount id lane)
    (hreq : ∀ id lane model, a'.requestCount id lane model = a.requestCount id lane model) :
    Counts a' leases :=
  ⟨fun id lane => (hin id lane).trans (h.inFlight id lane),
    fun id lane model => (hreq id lane model).trans (h.requests id lane model)⟩

theorem perm (h : Counts a leases) (hp : leases.Perm rest) : Counts a rest :=
  ⟨fun id lane => (h.inFlight id lane).trans (hp.countP_eq _),
    fun id lane model => (h.requests id lane model).trans (hp.countP_eq _)⟩

/-- A reservation counts one lease more, while the counters do not saturate. -/
theorem reserve (h : Counts a leases) (lease : Lease) (hlt : leases.length + 1 < 2 ^ 32) :
    Counts (a.reserve lease.candidateId lease.model lease.lane) (lease :: leases) where
  inFlight := by
    intro id lane
    have hle : leasesIn leases lease.candidateId lease.lane ≤ leases.length :=
      List.countP_le_length
    rw [SchedulerActivity.inFlightCount_reserve, h.inFlight, h.inFlight, leasesIn_cons,
      satAdd_of_lt (by omega)]
    split
    · next hk => rw [hk.1, hk.2]
    · rfl
  requests := by
    intro id lane model
    have hle : leasesOn leases lease.candidateId lease.lane (asciiLower lease.model) ≤
        leases.length := List.countP_le_length
    rw [SchedulerActivity.requestCount_reserve, h.requests, h.requests, leasesOn_cons,
      satAdd_of_lt (by omega)]
    split
    · next hk => rw [hk.1, hk.2.1, hk.2.2]
    · rfl

theorem inFlight_pos {lease : Lease} (h : Counts a (lease :: rest)) :
    0 < a.inFlightCount lease.candidateId lease.lane := by
  rw [h.inFlight, leasesIn_cons, if_pos ⟨rfl, rfl⟩]
  exact Nat.succ_pos _

/-- The release of an outstanding lease counts one lease less. -/
theorem release {lease : Lease} (h : Counts a (lease :: rest)) :
    Counts (a.release lease.candidateId (some lease.model) lease.lane).1 rest where
  inFlight := by
    intro id lane
    rw [SchedulerActivity.inFlightCount_release _ h.inFlight_pos, h.inFlight, h.inFlight,
      leasesIn_cons, leasesIn_cons]
    split
    · next hk =>
      rw [if_pos ⟨rfl, rfl⟩, hk.1, hk.2]
      exact Nat.add_sub_cancel _ _
    · rfl
  requests := by
    intro id lane model
    rw [SchedulerActivity.requestCount_release _ h.inFlight_pos, h.requests, h.requests,
      leasesOn_cons, leasesOn_cons]
    split
    · next hk =>
      rw [if_pos ⟨rfl, rfl, rfl⟩, hk.1, hk.2.1, hk.2.2]
      exact Nat.add_sub_cancel _ _
    · rfl

/-- The counters of one lane add up to its leases: each is counted under exactly one model. -/
theorem sum_modelsAt (h : Counts a leases) (id : String) (lane : InFlightLane) :
    (valuesOf (a.modelsAt id lane)).sum = leasesIn leases id lane := by
  rw [leasesIn, List.countP_eq_length_filter]
  refine sum_fibers (a.modelsAt id lane) (fun lease => asciiLower lease.model) _ ?_
  intro model
  rw [List.countP_filter]
  refine (h.requests id lane model).trans (List.countP_congr fun lease _ => ?_)
  simp only [decide_eq_true_eq, Bool.and_eq_true]
  tauto

theorem activeRequestCount (h : Counts a leases) (hlt : leases.length < 2 ^ 32) (id : String) :
    a.activeRequestCount id = leasesOf leases id := by
  have hle : leasesOf leases id ≤ leases.length := List.countP_le_length
  rw [SchedulerActivity.activeRequestCount_eq, h.sum_modelsAt, h.sum_modelsAt, leasesIn_add]
  omega

/-- A candidate without leases can be dropped from the counters. -/
theorem removeCandidate (h : Counts a leases) {id : String} (hnone : leasesOf leases id = 0) :
    Counts (a.removeCandidate id) leases := by
  have hall : ∀ lease ∈ leases, lease.candidateId ≠ id := by
    intro lease hmem
    simpa using List.countP_eq_zero.mp hnone lease hmem
  constructor
  · intro i lane
    rw [SchedulerActivity.inFlightCount_removeCandidate]
    split
    · next hi =>
      subst hi
      refine (List.countP_eq_zero.mpr fun lease hmem => ?_).symm
      simp [hall lease hmem]
    · exact h.inFlight i lane
  · intro i lane model
    rw [SchedulerActivity.requestCount_removeCandidate]
    split
    · next hi =>
      subst hi
      refine (List.countP_eq_zero.mpr fun lease hmem => ?_).symm
      simp [hall lease hmem]
    · exact h.requests i lane model

end Counts

/-! ## What pool operations do to counters, markers and kinds -/

namespace PoolScheduler

variable (s : PoolScheduler)

/-- A pool operation leaves the counters as they are, unless it removes an idle candidate. -/
theorem activity_pool (op : PoolOp) :
    (∀ leases, Counts s.activity leases → Counts (op.step s).activity leases) ∨
      ∃ id, s.activeRequestCount id = 0 ∧
        (op.step s).activity = s.activity.removeCandidate id := by
  cases op with
  | quiet op =>
    have q := s.quiet_step op
    exact .inl fun leases h => h.congr q.inFlightCount_eq q.requestCount_eq
  | upsert candidate => exact .inl fun _ h => h
  | remove id =>
    rcases s.remove_cases id with ⟨_, heq⟩ | ⟨_, _, _, heq⟩ | ⟨_, _, hidle, heq⟩
    · exact .inl fun _ h => by rwa [PoolOp.step, heq]
    · exact .inl fun _ h => by rwa [PoolOp.step, heq]
    · exact .inr ⟨id, hidle, by rw [PoolOp.step, heq]; rfl⟩
  | recordSuccess id model now =>
    rcases s.recordSuccess_cases id model now with heq | ⟨_, _, heq⟩
    · exact .inl fun _ h => by rwa [PoolOp.step, heq]
    · exact .inl fun _ h => by rwa [PoolOp.step, heq]
  | cool id request enforcePolicy =>
    rcases s.setCooldown_cases id request enforcePolicy with heq | ⟨_, _, heq⟩
    · exact .inl fun _ h => by rwa [PoolOp.step, heq]
    · exact .inl fun _ h => by rwa [PoolOp.step, heq]
  | clearCooldown id model =>
    rcases s.clearCooldown_cases id model with heq | heq
    · exact .inl fun _ h => by rwa [PoolOp.step, heq]
    · exact .inl fun _ h => by rwa [PoolOp.step, heq]

/-- Only a reservation sets a probe marker. -/
theorem halfOpen_pool_subset (op : PoolOp) : (op.step s).halfOpen ⊆ s.halfOpen := by
  cases op with
  | quiet op => rw [PoolOp.step, (s.quiet_step op).halfOpen]
  | upsert candidate => exact Finset.Subset.refl _
  | remove id =>
    rcases s.remove_cases id with ⟨_, heq⟩ | ⟨_, _, _, heq⟩ | ⟨_, _, _, heq⟩ <;>
      rw [PoolOp.step, heq]
    · exact Finset.Subset.refl _
    · exact Finset.filter_subset _ _
  | recordSuccess id model now =>
    rcases s.recordSuccess_cases id model now with heq | ⟨_, _, heq⟩ <;> rw [PoolOp.step, heq]
    exact Finset.erase_subset _ _
  | cool id request enforcePolicy =>
    rcases s.setCooldown_cases id request enforcePolicy with heq | ⟨_, _, heq⟩ <;>
      rw [PoolOp.step, heq]
    simp only [storeCooldown]
    split
    · exact Finset.filter_subset _ _
    · exact Finset.erase_subset _ _
  | clearCooldown id model =>
    rcases s.clearCooldown_cases id model with heq | heq <;> rw [PoolOp.step, heq]
    exact Finset.Subset.refl _

/-- An update in place keeps the kind of every candidate. -/
theorem kind_modify {t : CandidateTable} {id i : String} {f : RuntimeCandidate → RuntimeCandidate}
    {candidate : RuntimeCandidate} (hf : ∀ c, (f c).id = c.id := by intros; rfl)
    (hkind : ∀ c, (f c).kind = c.kind := by intros; rfl)
    (h : (t.modify id f hf).get? i = some candidate) :
    ∃ old, t.get? i = some old ∧ old.kind = candidate.kind := by
  have hmap := @CandidateTable.map_get?_modify _ t id i f hf (·.kind) hkind
  rw [h, Option.map_some, eq_comm, Option.map_eq_some_iff] at hmap
  exact hmap

/-- A candidate has the kind it had before, or is the one just upserted. -/
theorem kind_pool (op : PoolOp) {id : String} {candidate : RuntimeCandidate}
    (h : (op.step s).candidates.get? id = some candidate) :
    (∃ old, s.candidates.get? id = some old ∧ old.kind = candidate.kind) ∨
      op = .upsert candidate := by
  cases op with
  | quiet op =>
    obtain ⟨old, hold, hkind, _⟩ := (s.quiet_step op).get?_of_get? h
    exact .inl ⟨old, hold, hkind⟩
  | upsert new =>
    simp only [PoolOp.step, upsert, CandidateTable.get?_insert] at h
    split at h
    · rw [Option.some.inj h]
      exact .inr rfl
    · exact .inl ⟨candidate, h, rfl⟩
  | remove i =>
    rcases s.remove_cases i with ⟨_, heq⟩ | ⟨_, _, _, heq⟩ | ⟨_, _, _, heq⟩ <;>
      rw [PoolOp.step, heq] at h
    · exact .inl ⟨candidate, h, rfl⟩
    · exact .inl (kind_modify (h := h))
    · simp only [removeNow, CandidateTable.get?_erase] at h
      split at h
      · cases h
      · exact .inl ⟨candidate, h, rfl⟩
  | recordSuccess i model now =>
    rcases s.recordSuccess_cases i model now with heq | ⟨_, _, heq⟩ <;>
      rw [PoolOp.step, heq] at h
    · exact .inl ⟨candidate, h, rfl⟩
    · exact .inl (kind_modify (h := h))
  | cool i request enforcePolicy =>
    rcases s.setCooldown_cases i request enforcePolicy with heq | ⟨_, _, heq⟩ <;>
      rw [PoolOp.step, heq] at h
    · exact .inl ⟨candidate, h, rfl⟩
    · exact .inl (kind_modify (h := h))
  | clearCooldown i model =>
    rcases s.clearCooldown_cases i model with heq | heq <;> rw [PoolOp.step, heq] at h
    · exact .inl ⟨candidate, h, rfl⟩
    · exact .inl (kind_modify (h := h))

end PoolScheduler

/-! ## Accounting -/

/-- The counters count the outstanding leases, and every probe marker is one that the release of
some outstanding lease of its candidate erases. -/
structure Accounted (p : LeasedPool) : Prop where
  counts : Counts p.scheduler.activity p.leases
  probes : ∀ key ∈ p.scheduler.halfOpen, ∃ lease ∈ p.leases,
    lease.candidateId = key.1 ∧ (key.2 = "*" ∨ key.2 = asciiLower lease.model)

theorem mem_releasedMarkers {markers : Finset (String × String)} {id model : String}
    {key : String × String}
    (h : key ∈ PoolScheduler.releasedMarkers markers id (some model)) :
    key ∈ markers ∧ ¬ (id = key.1 ∧ (key.2 = "*" ∨ key.2 = asciiLower model)) := by
  simp only [PoolScheduler.releasedMarkers, Finset.mem_erase] at h
  obtain ⟨hstar, hmodel, hmem⟩ := h
  refine ⟨hmem, ?_⟩
  rintro ⟨rfl, hscope | hscope⟩
  · exact hstar (Prod.ext rfl hscope)
  · exact hmodel (Prod.ext rfl hscope)

/-- The release of an outstanding lease always counts, so it finalizes a retired candidate that
has become idle. -/
theorem releaseForLane_of_counts {s : PoolScheduler} {lease : Lease} {rest : List Lease}
    (h : Counts s.activity (lease :: rest)) :
    (s.releaseForLane lease.candidateId (some lease.model) lease.lane).1 =
      PoolScheduler.finalizeRetiredIfIdle
        { s with
          halfOpen := PoolScheduler.releasedMarkers s.halfOpen lease.candidateId (some lease.model)
          activity := (s.activity.release lease.candidateId (some lease.model) lease.lane).1 }
        lease.candidateId := by
  have hreleased : (s.activity.release lease.candidateId (some lease.model) lease.lane).2 = true :=
    congrArg Prod.snd (SchedulerActivity.release_of_pos _ h.inFlight_pos)
  unfold PoolScheduler.releaseForLane
  simp only [hreleased, if_true]

variable {p : LeasedPool}

/-- Dropping an idle candidate from the scheduler leaves the account balanced. -/
theorem Accounted.removeNow (h : Accounted p) (hlt : p.leases.length < 2 ^ 32) {id : String}
    (hidle : p.scheduler.activeRequestCount id = 0) :
    Accounted { p with scheduler := (p.scheduler.removeNow id).1 } where
  counts := by
    have hnone : leasesOf p.leases id = 0 :=
      (h.counts.activeRequestCount hlt id).symm.trans hidle
    exact h.counts.removeCandidate hnone
  probes := fun key hk => h.probes key (Finset.mem_filter.mp hk).1

theorem Accounted.pool (h : Accounted p) (hlt : p.leases.length < 2 ^ 32) (op : PoolOp) :
    Accounted { p with scheduler := op.step p.scheduler } where
  counts := by
    rcases p.scheduler.activity_pool op with hkeep | ⟨id, hidle, heq⟩
    · exact hkeep _ h.counts
    · simp only
      rw [heq]
      exact (h.removeNow hlt hidle).counts
  probes := fun key hk => h.probes key (p.scheduler.halfOpen_pool_subset op hk)

theorem Accounted.reserve (h : Accounted p) (lease : Lease) (now : Nat)
    (hlt : (LeaseOp.step p (.reserve lease now)).leases.length < 2 ^ 32) :
    Accounted (LeaseOp.step p (.reserve lease now)) := by
  simp only [LeaseOp.step] at hlt ⊢
  rcases p.scheduler.reserveForLane_cases lease.candidateId lease.model now lease.lane with
    heq | ⟨candidate, _, _, ⟨heq, _⟩ | ⟨scope, hscope, _, _, heq⟩⟩
  · rw [heq]
    exact h
  · rw [heq] at hlt ⊢
    refine ⟨h.counts.reserve lease hlt, fun key hk => ?_⟩
    obtain ⟨owner, hmem, howner⟩ := h.probes key hk
    exact ⟨owner, List.mem_cons_of_mem _ hmem, howner⟩
  · rw [heq] at hlt ⊢
    refine ⟨h.counts.reserve lease hlt, fun key hk => ?_⟩
    rcases Finset.mem_insert.mp hk with rfl | hk
    · exact ⟨lease, List.mem_cons_self, rfl, halfOpenScope_eq hscope⟩
    · obtain ⟨owner, hmem, howner⟩ := h.probes key hk
      exact ⟨owner, List.mem_cons_of_mem _ hmem, howner⟩

theorem Accounted.release (h : Accounted p) (hlt : p.leases.length < 2 ^ 32) (index : Nat) :
    Accounted (LeaseOp.step p (.release index)) := by
  simp only [LeaseOp.step]
  cases hget : p.leases[index]? with
  | none => exact h
  | some lease =>
    have hperm := perm_of_getElem? hget
    have hcounts := h.counts.perm hperm
    -- The scheduler between the release of the counters and the finalization.
    have hreleased : Accounted ⟨{ p.scheduler with
        halfOpen :=
          PoolScheduler.releasedMarkers p.scheduler.halfOpen lease.candidateId (some lease.model)
        activity :=
          (p.scheduler.activity.release lease.candidateId (some lease.model) lease.lane).1 },
        p.leases.eraseIdx index⟩ := by
      refine ⟨hcounts.release, fun key hk => ?_⟩
      obtain ⟨hmem, hother⟩ := mem_releasedMarkers hk
      obtain ⟨owner, howner, hid, hscope⟩ := h.probes key hmem
      rcases List.mem_cons.mp (hperm.mem_iff.mp howner) with rfl | hrest
      · exact absurd ⟨hid, hscope⟩ hother
      · exact ⟨owner, hrest, hid, hscope⟩
    have hshorter : (p.leases.eraseIdx index).length < 2 ^ 32 :=
      Nat.lt_of_le_of_lt (List.length_eraseIdx_le _ _) hlt
    simp only
    rw [releaseForLane_of_counts hcounts]
    unfold PoolScheduler.finalizeRetiredIfIdle
    split
    · next hidle => exact hreleased.removeNow hshorter hidle.2
    · exact hreleased

/-- The number of outstanding leases stays in the range of the counters. -/
def LeasesFit (p : LeasedPool) (op : LeaseOp) : Prop := (op.step p).leases.length < 2 ^ 32

/-- The account is balanced and the counters have not saturated. -/
structure Balanced (p : LeasedPool) : Prop extends Accounted p where
  fits : p.leases.length < 2 ^ 32

theorem Balanced.start : Balanced {} where
  counts := Counts.empty
  probes := fun key hk => absurd hk (Finset.notMem_empty key)
  fits := Nat.pow_pos (by decide)

theorem Balanced.step (h : Balanced p) (op : LeaseOp) (hfit : LeasesFit p op) :
    Balanced (op.step p) := by
  refine ⟨?_, hfit⟩
  cases op with
  | pool op => exact h.pool h.fits op
  | reserve lease now => exact h.reserve lease now hfit
  | release index => exact h.release h.fits index

theorem balanced_run {ops : List LeaseOp} (h : StepsMeet LeaseOp.step LeasesFit {} ops) :
    Balanced (run LeaseOp.step {} ops) :=
  run_invariant (fun _ op hp hfit => hp.step op hfit) Balanced.start h

end Zenith.Scheduler
