import Zenith.Scheduler.SelectionContract
import Zenith.Scheduler.Leases

/-!
# Leaving the pool

A busy candidate that is removed stays in the pool as a tombstone until its last lease is released.
Every other operation still finds it there, so what removal promises has to be checked against all
of them.

`Leaving id p` says that `id` is on its way out of `p` or has left: it is retired and has leases
out, or it is absent and has none. Both make it unselectable (`Leaving.not_selected`), and the
release of the last lease goes from the first to the second. `Leaving` survives every step but two
(`Leaving.step`): an `upsert` of the candidate, which takes the retirement back, and a reservation
of it, which a caller that reserves what was selected cannot make.

`Held` is the other half of graceful removal: the candidate of an outstanding lease is in the pool.
-/

namespace Zenith.Scheduler

open Std Zenith.Text Zenith.Tables Zenith.Runs

/-! ## Who is in the pool -/

namespace PoolScheduler

/-- Nothing happens to the presence of `id` and to its retirement. -/
def SameStanding (s s' : PoolScheduler) (id : String) : Prop :=
  (s'.candidates.get? id).isSome = (s.candidates.get? id).isSome ∧
    (id ∈ s'.retiredCandidates ↔ id ∈ s.retiredCandidates)

variable (s : PoolScheduler)

theorem SameStanding.refl (id : String) : SameStanding s s id := ⟨rfl, Iff.rfl⟩

theorem SameStanding.absent {s s' : PoolScheduler} {id : String} (h : SameStanding s s' id)
    (hnone : s.candidates.get? id = none) : s'.candidates.get? id = none := by
  rw [← Option.isNone_iff_eq_none, ← Option.not_isSome, h.1, hnone]
  rfl

theorem isSome_get?_modify (t : CandidateTable) (id i : String)
    {f : RuntimeCandidate → RuntimeCandidate} (hf : ∀ c, (f c).id = c.id := by intros; rfl) :
    ((t.modify id f hf).get? i).isSome = (t.get? i).isSome := by
  rw [CandidateTable.get?_modify]
  split
  · next hi => rw [hi, Option.isSome_map]
  · rfl

theorem sameStanding_quiet (op : QuietOp) (id : String) : SameStanding s (op.step s) id := by
  have q := s.quiet_step op
  refine ⟨?_, by rw [q.retiredCandidates]⟩
  have hcore := congrArg Option.isSome (q.core id)
  rwa [Option.isSome_map, Option.isSome_map] at hcore

/-- Removing one candidate is no matter for another. -/
theorem sameStanding_removeNow {id i : String} (hi : id ≠ i) :
    SameStanding s (s.removeNow id).1 i := by
  refine ⟨?_, ?_⟩
  · simp only [removeNow, CandidateTable.get?_erase, if_neg hi]
  · simp [removeNow, Ne.symm hi]

theorem sameStanding_remove {id i : String} (hi : id ≠ i) : SameStanding s (s.remove id).1 i := by
  rcases s.remove_cases id with ⟨_, heq⟩ | ⟨_, _, _, heq⟩ | ⟨_, _, _, heq⟩ <;> rw [heq]
  · exact SameStanding.refl s i
  · exact ⟨isSome_get?_modify s.candidates id i, by simp [retire, Ne.symm hi]⟩
  · exact s.sameStanding_removeNow hi

/-- Only an upsert of a candidate and its removal touch its standing. -/
theorem standing_pool (op : PoolOp) (id : String) :
    SameStanding s (op.step s) id ∨ (∃ candidate, op = .upsert candidate ∧ candidate.id = id) ∨
      op = .remove id := by
  cases op with
  | quiet op => exact .inl (s.sameStanding_quiet op id)
  | upsert candidate =>
    by_cases hid : candidate.id = id
    · exact .inr (.inl ⟨candidate, rfl, hid⟩)
    · refine .inl ⟨?_, ?_⟩
      · simp only [PoolOp.step, upsert, CandidateTable.get?_insert, if_neg hid]
      · simp [PoolOp.step, upsert, Ne.symm hid]
  | remove i =>
    by_cases hi : i = id
    · exact .inr (.inr (by rw [hi]))
    · exact .inl (s.sameStanding_remove hi)
  | recordSuccess i model now =>
    rcases s.recordSuccess_cases i model now with heq | ⟨_, _, heq⟩ <;> rw [PoolOp.step, heq]
    · exact .inl (SameStanding.refl s id)
    · exact .inl ⟨isSome_get?_modify s.candidates i id (recoverCandidate_id model now), Iff.rfl⟩
  | cool i request enforcePolicy =>
    rcases s.setCooldown_cases i request enforcePolicy with heq | ⟨_, _, heq⟩ <;>
      rw [PoolOp.step, heq]
    · exact .inl (SameStanding.refl s id)
    · exact .inl ⟨isSome_get?_modify s.candidates i id, Iff.rfl⟩
  | clearCooldown i model =>
    rcases s.clearCooldown_cases i model with heq | heq <;> rw [PoolOp.step, heq]
    · exact .inl (SameStanding.refl s id)
    · exact .inl ⟨isSome_get?_modify s.candidates i id, Iff.rfl⟩

/-- A reservation changes counters and markers only, and needs the candidate to be there. -/
theorem reserveForLane_standing (id model : String) (now : Nat) (lane : InFlightLane) :
    (s.reserveForLane id model now lane).1.candidates = s.candidates ∧
      (s.reserveForLane id model now lane).1.retiredCandidates = s.retiredCandidates ∧
      ((s.reserveForLane id model now lane).2 = true → (s.candidates.get? id).isSome) := by
  rcases s.reserveForLane_cases id model now lane with
    heq | ⟨candidate, hget, _, ⟨heq, _⟩ | ⟨_, _, _, _, heq⟩⟩ <;> rw [heq]
  · exact ⟨rfl, rfl, fun h => by cases h⟩
  · exact ⟨rfl, rfl, fun _ => by rw [hget]; rfl⟩
  · exact ⟨rfl, rfl, fun _ => by rw [hget]; rfl⟩

end PoolScheduler

open PoolScheduler

variable {p : LeasedPool} {id : String}

theorem Balanced.activeRequestCount_eq (h : Balanced p) (id : String) :
    p.scheduler.activeRequestCount id = leasesOf p.leases id :=
  h.counts.activeRequestCount h.fits id

/-- The release of a lease finalizes its candidate if that is retired and has no other lease out,
and is no matter for the standing of anyone else. -/
theorem Balanced.release_cases (h : Balanced p) {index : Nat} {lease : Lease}
    (hget : p.leases[index]? = some lease) (id : String) :
    (lease.candidateId = id ∧ id ∈ p.scheduler.retiredCandidates ∧
        leasesOf (p.leases.eraseIdx index) id = 0 ∧
        (LeaseOp.step p (.release index)).scheduler.candidates.get? id = none) ∨
      (¬ (lease.candidateId = id ∧ id ∈ p.scheduler.retiredCandidates ∧
          leasesOf (p.leases.eraseIdx index) id = 0) ∧
        SameStanding p.scheduler (LeaseOp.step p (.release index)).scheduler id) := by
  have hcounts := h.counts.perm (perm_of_getElem? hget)
  have hshorter : (p.leases.eraseIdx index).length < 2 ^ 32 :=
    Nat.lt_of_le_of_lt (List.length_eraseIdx_le _ _) h.fits
  have hactive := hcounts.release.activeRequestCount hshorter lease.candidateId
  simp only [LeaseOp.step, hget]
  rw [releaseForLane_of_counts hcounts, finalizeRetiredIfIdle]
  simp only [PoolScheduler.activeRequestCount, hactive]
  by_cases hid : lease.candidateId = id
  · subst hid
    split
    · next hidle =>
      exact .inl ⟨rfl, hidle.1, hidle.2, by simp [removeNow]⟩
    · next hbusy => exact .inr ⟨fun hall => hbusy hall.2, rfl, Iff.rfl⟩
  · refine .inr ⟨fun hall => hid hall.1, ?_⟩
    split
    · exact sameStanding_removeNow _ hid
    · exact ⟨rfl, Iff.rfl⟩

/-! ## Leased candidates are present -/

/-- The candidate of every outstanding lease is in the pool. -/
def Held (p : LeasedPool) : Prop :=
  ∀ id, 0 < leasesOf p.leases id → (p.scheduler.candidates.get? id).isSome

theorem Held.pool (hheld : Held p) (h : Balanced p) (op : PoolOp) :
    Held (LeaseOp.step p (.pool op)) := by
  intro id hpos
  have hold := hheld id hpos
  show ((op.step p.scheduler).candidates.get? id).isSome
  rcases p.scheduler.standing_pool op id with hsame | ⟨candidate, rfl, rfl⟩ | rfl
  · rwa [hsame.1]
  · simp [PoolOp.step, PoolScheduler.upsert]
  · rcases p.scheduler.remove_cases id with ⟨hnone, _⟩ | ⟨_, _, _, heq⟩ | ⟨_, _, hidle, _⟩
    · rw [hnone] at hold
      cases hold
    · rw [PoolOp.step, heq]
      exact (isSome_get?_modify p.scheduler.candidates id id).trans hold
    · rw [h.activeRequestCount_eq] at hidle
      exact absurd hidle (Nat.pos_iff_ne_zero.mp hpos)

theorem Held.step (hheld : Held p) (h : Balanced p) (op : LeaseOp) : Held (op.step p) := by
  cases op with
  | pool op => exact hheld.pool h op
  | reserve lease now =>
    obtain ⟨hcandidates, _, hpresent⟩ := p.scheduler.reserveForLane_standing lease.candidateId
      lease.model now lease.lane
    intro id hpos
    simp only [LeaseOp.step] at hpos ⊢
    rw [hcandidates]
    split at hpos
    · next hreserved =>
      rw [leasesOf_cons] at hpos
      split at hpos
      · next hid => exact hid ▸ hpresent hreserved
      · exact hheld id hpos
    · exact hheld id hpos
  | release index =>
    intro id hpos
    cases hget : p.leases[index]? with
    | none =>
      simp only [LeaseOp.step, hget] at hpos ⊢
      exact hheld id hpos
    | some lease =>
      have hrest : 0 < leasesOf (p.leases.eraseIdx index) id := by
        simpa [LeaseOp.step, hget] using hpos
      rcases h.release_cases hget id with ⟨_, _, hzero, _⟩ | ⟨_, hsame⟩
      · exact absurd hzero (Nat.pos_iff_ne_zero.mp hrest)
      · rw [hsame.1]
        refine hheld id (Nat.lt_of_lt_of_le hrest ?_)
        rw [leasesOf, leasesOf, (perm_of_getElem? hget).countP_eq, List.countP_cons]
        exact Nat.le_add_right _ _

/-- A balanced pool that holds what it has leased. -/
structure Sound (p : LeasedPool) : Prop extends Balanced p where
  held : Held p

theorem Sound.step (h : Sound p) (op : LeaseOp) (hfit : LeasesFit p op) : Sound (op.step p) :=
  ⟨h.toBalanced.step op hfit, h.held.step h.toBalanced op⟩

/-- Pool operations hand out nothing, so any number of them fits. -/
theorem Sound.pools (h : Sound p) (ops : List PoolOp) :
    Sound (run LeaseOp.step p (ops.map .pool)) := by
  induction ops generalizing p with
  | nil => exact h
  | cons op ops ih => exact ih (h.step (.pool op) h.fits)

/-! ## Leaving -/

/-- `id` is retired and has leases out, or is absent and has none. -/
def Leaving (id : String) (p : LeasedPool) : Prop :=
  (id ∈ p.scheduler.retiredCandidates ∧ 0 < leasesOf p.leases id) ∨
    (p.scheduler.candidates.get? id = none ∧ leasesOf p.leases id = 0)

/-- The step does not take `id` back into the pool. -/
def Spares (id : String) : LeaseOp → Prop
  | .pool (.upsert candidate) => candidate.id ≠ id
  | .reserve lease _ => lease.candidateId ≠ id
  | _ => True

/-- Neither a tombstone nor an absent candidate is selected. -/
theorem Leaving.not_selected (h : Leaving id p) {request : SelectionRequest} {lane : InFlightLane}
    {selection : Selection} (hsel : (p.scheduler.selectFor request lane).2 = some selection) :
    selection.candidateId ≠ id := by
  obtain ⟨candidate, hget, hselectable⟩ := p.scheduler.selected_selectable request lane hsel
  rintro rfl
  rcases h with ⟨hretired, _⟩ | ⟨hnone, _⟩
  · rw [← CandidateTable.get?_id hget] at hretired
    simp [selectable, isEligible, hretired] at hselectable
  · rw [hget] at hnone
    cases hnone

/-- A candidate leaves as soon as it is removed. -/
theorem Sound.leaving_remove (h : Sound p) (id : String) :
    Leaving id (LeaseOp.step p (.pool (.remove id))) := by
  simp only [LeaseOp.step, PoolOp.step]
  rcases p.scheduler.remove_cases id with ⟨hnone, heq⟩ | ⟨_, _, hbusy, heq⟩ | ⟨_, _, hidle, heq⟩
  · refine .inr ⟨by rw [heq]; exact hnone, ?_⟩
    refine Nat.eq_zero_of_not_pos fun hpos => ?_
    have hpresent := h.held id hpos
    rw [hnone] at hpresent
    cases hpresent
  · rw [h.activeRequestCount_eq] at hbusy
    exact .inl ⟨by rw [heq]; exact Finset.mem_insert_self _ _, hbusy⟩
  · rw [h.activeRequestCount_eq] at hidle
    exact .inr ⟨by rw [heq]; simp [removeNow], hidle⟩

theorem Leaving.of_sameStanding {s' : PoolScheduler} (h : Leaving id p)
    (hsame : SameStanding p.scheduler s' id) : Leaving id { p with scheduler := s' } := by
  rcases h with ⟨hretired, hpos⟩ | ⟨hnone, hzero⟩
  · exact .inl ⟨hsame.2.mpr hretired, hpos⟩
  · exact .inr ⟨hsame.absent hnone, hzero⟩

theorem Leaving.step (h : Leaving id p) (hp : Sound p) {op : LeaseOp} (hop : Spares id op) :
    Leaving id (op.step p) := by
  cases op with
  | pool op =>
    rcases p.scheduler.standing_pool op id with hsame | ⟨candidate, rfl, hid⟩ | rfl
    · exact h.of_sameStanding hsame
    · exact absurd hid hop
    · exact hp.leaving_remove id
  | reserve lease now =>
    obtain ⟨hcandidates, hretired, _⟩ := p.scheduler.reserveForLane_standing lease.candidateId
      lease.model now lease.lane
    have hleases : leasesOf (LeaseOp.step p (.reserve lease now)).leases id =
        leasesOf p.leases id := by
      simp only [LeaseOp.step]
      split
      · rw [leasesOf_cons, if_neg hop, Nat.add_zero]
      · rfl
    unfold Leaving
    rw [hleases]
    simp only [LeaseOp.step, hcandidates, hretired]
    exact h
  | release index =>
    cases hget : p.leases[index]? with
    | none => simpa only [LeaseOp.step, hget] using h
    | some lease =>
      have hleases : (LeaseOp.step p (.release index)).leases = p.leases.eraseIdx index := by
        simp only [LeaseOp.step, hget]
      have hcount : leasesOf p.leases id = leasesOf (p.leases.eraseIdx index) id +
          if lease.candidateId = id then 1 else 0 := by
        rw [← leasesOf_cons, leasesOf, (perm_of_getElem? hget).countP_eq]
        rfl
      rcases hp.toBalanced.release_cases hget id with ⟨_, _, hzero, hnone⟩ | ⟨hkeep, hsame⟩
      · exact .inr ⟨hnone, by rw [hleases, hzero]⟩
      · unfold Leaving
        rw [hleases]
        rcases h with ⟨hretired, hpos⟩ | ⟨hnone, hzero⟩
        · -- The released lease was not the last one of `id`, or not one of `id` at all.
          refine .inl ⟨hsame.2.mpr hretired, ?_⟩
          by_cases hid : lease.candidateId = id
          · exact Nat.pos_of_ne_zero fun hlast => hkeep ⟨hid, hretired, hlast⟩
          · rwa [hcount, if_neg hid] at hpos
        · exact .inr ⟨hsame.absent hnone,
            Nat.eq_zero_of_add_eq_zero_right (hcount.symm.trans hzero)⟩

theorem Leaving.pools (h : Leaving id p) (hp : Sound p) {ops : List PoolOp}
    (hops : ∀ candidate, .upsert candidate ∈ ops → candidate.id ≠ id) :
    Leaving id (run LeaseOp.step p (ops.map .pool)) := by
  induction ops generalizing p with
  | nil => exact h
  | cons op ops ih =>
    have hop : Spares id (.pool op) := by
      cases op with
      | upsert candidate => exact hops candidate List.mem_cons_self
      | _ => trivial
    exact ih (h.step hp hop) (hp.step (.pool op) hp.fits)
      fun candidate hmem => hops candidate (List.mem_cons_of_mem _ hmem)

end Zenith.Scheduler
