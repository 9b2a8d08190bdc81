import Zenith.Scheduler.Leases

/-!
# Half-open probes

After a cooldown has expired, the first reservation is a probe: it leaves a marker `(candidate, scope)` in `halfOpen`
that keeps other reservations of the scope out until the probe is over. The marker has no owner: a release, a success
or a new cooldown erases it whoever set it, and a second probe is then let in while the first is still out.

`TrackedPool` is a leased pool in which every lease remembers the scope it probes and the expired cooldown entries it
was let through by. `KeepsProbes` is the condition on a step under which no live probe loses its marker;
`half_open_exclusive` is exclusivity over every run whose steps meet it, `two_live_probes` a run that does not.
-/

namespace Zenith.Scheduler

open Std Zenith.Text Zenith.Tables Zenith.Runs

/-! ## Leases that remember what they probe -/

/-- The expired cooldown entries a probe of `scope` is about. -/
def expiredEntries (candidate : RuntimeCandidate) (scope : String) (nowMs : Nat) :
    List (String × Nat) :=
  candidate.cooldowns.toList.filter fun e => decide (e.2 ≤ nowMs) && decide (asciiLower e.1 = scope)

/-- A lease, the scope it was reserved as a probe of, and the probed entries that have been there
ever since. -/
structure TrackedLease where
  lease : Lease
  scope : Option String
  entries : List (String × Nat)
deriving DecidableEq

/-- The lease probes `scope` of the candidate and the expired cooldown is still there. -/
def TrackedLease.probes (tracked : TrackedLease) (id scope : String) : Bool :=
  decide (tracked.lease.candidateId = id) && decide (tracked.scope = some scope) &&
    !tracked.entries.isEmpty

/-- Forgets the entries that are gone. -/
def TrackedLease.refresh (s : PoolScheduler) (tracked : TrackedLease) : TrackedLease :=
  { tracked with
    entries := tracked.entries.filter fun e =>
      (s.candidates.get? tracked.lease.candidateId).any fun candidate =>
        decide (candidate.cooldowns[e.1]? = some e.2) }

structure TrackedPool where
  scheduler : PoolScheduler := .new
  leases : List TrackedLease := []

namespace TrackedPool

/-- The record of a lease that is being reserved. -/
def track (s : PoolScheduler) (lease : Lease) (nowMs : Nat) : TrackedLease :=
  let scope := (s.candidates.get? lease.candidateId).bind fun candidate =>
    halfOpenScope candidate lease.model nowMs
  { lease := lease
    scope := scope
    entries := ((s.candidates.get? lease.candidateId).bind fun candidate =>
      scope.map fun scope => expiredEntries candidate scope nowMs).getD [] }

/-- The step of `LeaseOp` on the scheduler, with the records kept up to date. -/
def step (p : TrackedPool) : LeaseOp → TrackedPool
  | .pool op =>
    let s := op.step p.scheduler
    ⟨s, p.leases.map (·.refresh s)⟩
  | .reserve lease now =>
    let reserved := p.scheduler.reserveForLane lease.candidateId lease.model now lease.lane
    ⟨reserved.1, if reserved.2 then track p.scheduler lease now :: p.leases else p.leases⟩
  | .release index =>
    match p.leases[index]? with
    | none => p
    | some tracked =>
      let s := (p.scheduler.releaseForLane tracked.lease.candidateId (some tracked.lease.model)
        tracked.lease.lane).1
      ⟨s, (p.leases.eraseIdx index).map (·.refresh s)⟩

/-! ## Exclusivity and the step condition -/

/-- At most one outstanding lease probes a scope of a candidate. -/
def Exclusive (p : TrackedPool) : Prop :=
  ∀ id scope, p.leases.countP (·.probes id scope) ≤ 1

/-- No live probe loses its marker by the step. -/
def KeepsProbes (p : TrackedPool) : LeaseOp → Prop
  | .release index =>
    -- no other lease probes what the release erases
    ∀ released, p.leases[index]? = some released → ∀ other ∈ p.leases.eraseIdx index,
      other.probes released.lease.candidateId "*" = false ∧
        other.probes released.lease.candidateId (asciiLower released.lease.model) = false
  | .reserve lease now =>
    -- the code sets no marker for an empty model
    lease.model = "" → (track p.scheduler lease now).scope = none
  | .pool (.recordSuccess id model now) =>
    -- the clock of a success is not behind a probed cooldown
    ∀ tracked ∈ p.leases, tracked.lease.candidateId = id →
      tracked.scope = some (asciiLower model) → ∀ e ∈ tracked.entries, e.2 ≤ now
  | .pool (.cool id request enforcePolicy) =>
    -- a cooldown that is not refused replaces the entries of the probes it erases the markers of
    (enforcePolicy = true → request.reason = .transient →
        p.scheduler.transientCooldownAllowed id request.policyModel request.allowedProtocols
          request.requestScope request.nowMs = true) →
      ∀ tracked ∈ p.leases, tracked.lease.candidateId = id →
        request.key = "*" ∨ tracked.scope = some request.key →
        ∀ e ∈ tracked.entries, e.1 = request.key ∧ e.2 < request.retryAtMs
  | _ => True

/-- Every live probe has its marker, probes its own scope, and is the only one. -/
structure Marked (p : TrackedPool) : Prop where
  marked : ∀ tracked ∈ p.leases, ∀ id scope, tracked.probes id scope = true →
    (id, scope) ∈ p.scheduler.halfOpen
  keyed : ∀ tracked ∈ p.leases, ∀ e ∈ tracked.entries, tracked.scope = some (asciiLower e.1)
  exclusive : Exclusive p

/-! ## Refreshed records -/

variable {p : TrackedPool} {tracked : TrackedLease} {id scope : String}

theorem probes_iff : tracked.probes id scope = true ↔
    tracked.lease.candidateId = id ∧ tracked.scope = some scope ∧
      ∃ e, e ∈ tracked.entries := by
  simp only [TrackedLease.probes, Bool.and_eq_true, decide_eq_true_eq, Bool.not_eq_true',
    List.isEmpty_eq_false_iff, List.ne_nil_iff_exists_cons, and_assoc]
  refine and_congr_right fun _ => and_congr_right fun _ => ?_
  constructor
  · rintro ⟨e, rest, heq⟩
    exact ⟨e, heq ▸ List.mem_cons_self⟩
  · rintro ⟨e, he⟩
    cases hl : tracked.entries with
    | nil =>
      rw [hl] at he
      cases he
    | cons e rest => exact ⟨e, rest, rfl⟩

variable {s : PoolScheduler} {e : String × Nat}

/-- An entry that is kept is a cooldown of the candidate. -/
theorem mem_entries_refresh :
    e ∈ (tracked.refresh s).entries ↔
      e ∈ tracked.entries ∧ ∃ candidate,
        s.candidates.get? tracked.lease.candidateId = some candidate ∧
        candidate.cooldowns[e.1]? = some e.2 := by
  simp only [TrackedLease.refresh, List.mem_filter]
  refine and_congr_right fun _ => ?_
  cases s.candidates.get? tracked.lease.candidateId with
  | none => simp
  | some candidate => simp

/-- A live probe after the step was one before, and one of its entries is still there. -/
theorem probes_of_refresh (h : (tracked.refresh s).probes id scope = true) :
    tracked.probes id scope = true ∧ tracked.lease.candidateId = id ∧
      tracked.scope = some scope ∧ ∃ e ∈ tracked.entries, ∃ candidate,
        s.candidates.get? id = some candidate ∧ candidate.cooldowns[e.1]? = some e.2 := by
  obtain ⟨hid, hscope, e, he⟩ := probes_iff.mp h
  have hid' : tracked.lease.candidateId = id := hid
  obtain ⟨hmem, candidate, hget, hcool⟩ := mem_entries_refresh.mp he
  exact ⟨probes_iff.mpr ⟨hid, hscope, e, hmem⟩, hid', hscope, e, hmem, candidate, hid' ▸ hget, hcool⟩

variable {leases : List TrackedLease}

theorem exclusive_refresh (s : PoolScheduler)
    (h : ∀ id scope, leases.countP (·.probes id scope) ≤ 1) (id scope : String) :
    (leases.map (·.refresh s)).countP (·.probes id scope) ≤ 1 := by
  rw [List.countP_map]
  refine Nat.le_trans (List.countP_mono_left fun tracked _ hp => ?_) (h id scope)
  exact (probes_of_refresh hp).1

/-- A step that only shortens the lease list and refreshes it keeps the invariant, if every probe
that stays alive keeps its marker. -/
theorem Marked.refresh (h : Marked p)
    (hsub : leases.Sublist p.leases)
    (hkeep : ∀ tracked ∈ leases, ∀ id scope, (tracked.refresh s).probes id scope = true →
      (id, scope) ∈ s.halfOpen) : Marked ⟨s, leases.map (·.refresh s)⟩ where
  marked := by
    intro tracked hmem id scope hprobes
    obtain ⟨old, hold, rfl⟩ := List.mem_map.mp hmem
    exact hkeep old hold id scope hprobes
  keyed := by
    intro tracked hmem e he
    obtain ⟨old, hold, rfl⟩ := List.mem_map.mp hmem
    exact h.keyed old (hsub.mem hold) e (mem_entries_refresh.mp he).1
  exclusive := exclusive_refresh s fun id scope =>
    Nat.le_trans hsub.countP_le (h.exclusive id scope)

/-! ## Pool operations -/

variable {now : Nat}

variable {candidate : RuntimeCandidate}

/-- A cooldown that survives a success is not an expired one of the model. -/
theorem not_recovered {model : String}
    (hkey : asciiLower e.1 = asciiLower model) (hle : e.2 ≤ now) :
    (PoolScheduler.recoverCandidate candidate model now).cooldowns[e.1]? ≠ some e.2 := by
  intro h
  simp only [PoolScheduler.recoverCandidate, ExtTreeMap.getElem?_filter',
    Option.filter_eq_some_iff, appliesTo, Bool.or_eq_true, Bool.not_eq_true', Bool.or_eq_false_iff,
    decide_eq_true_eq] at h
  obtain ⟨_, ⟨_, hother⟩ | hlt⟩ := h
  · rw [eqIgnoreAsciiCase, decide_eq_false_iff_not] at hother
    exact hother hkey
  · exact absurd hle (Nat.not_le.mpr hlt)

/-- The markers a success leaves cover every probe that is still live. -/
theorem Marked.recordSuccess (h : Marked p) {model : String}
    (hok : KeepsProbes p (.pool (.recordSuccess id model now))) :
    Marked (p.step (.pool (.recordSuccess id model now))) := by
  refine h.refresh (List.Sublist.refl _) fun tracked hmem i scope hprobes => ?_
  obtain ⟨hold, hid, hscope, e, he, now', hget, hcool⟩ := probes_of_refresh hprobes
  have hmark := h.marked tracked hmem i scope hold
  simp only [PoolOp.step] at hget ⊢
  rcases p.scheduler.recordSuccess_cases id model now with heq | ⟨candidate, hcand, heq⟩
  · rw [heq]
    exact hmark
  · rw [heq] at hget ⊢
    refine Finset.mem_erase.mpr ⟨?_, hmark⟩
    rintro ⟨⟩
    -- A probe of the erased marker would have kept an expired entry.
    have hkey : asciiLower e.1 = asciiLower model :=
      Option.some.inj ((h.keyed tracked hmem e he).symm.trans hscope)
    have hle := hok tracked hmem hid hscope e he
    simp only [PoolScheduler.settle, CandidateTable.get?_modify, if_true, hcand,
      Option.map_some, Option.some.injEq] at hget
    rw [← hget] at hcool
    exact not_recovered hkey hle hcool

/-- An accepted cooldown raises the entries of every probe whose marker it erases. -/
theorem Marked.cool (h : Marked p) {request : CooldownRequest} {enforcePolicy : Bool}
    (hok : KeepsProbes p (.pool (.cool id request enforcePolicy))) :
    Marked (p.step (.pool (.cool id request enforcePolicy))) := by
  refine h.refresh (List.Sublist.refl _) fun tracked hmem i scope hprobes => ?_
  obtain ⟨hold, hid, hscope, e, he, now', hget, hcool⟩ := probes_of_refresh hprobes
  have hmark := h.marked tracked hmem i scope hold
  simp only [PoolOp.step] at hget ⊢
  rcases p.scheduler.setCooldown_cases id request enforcePolicy with heq | ⟨candidate, hcand, heq⟩
  · rw [heq]
    exact hmark
  · have hallowed : enforcePolicy = true → request.reason = .transient →
        p.scheduler.transientCooldownAllowed id request.policyModel request.allowedProtocols
          request.requestScope request.nowMs = true := by
      intro henforce hreason
      by_contra hrefused
      rw [Bool.not_eq_true] at hrefused
      simp [PoolScheduler.setCooldownWithReasonInner, henforce, hreason, hrefused] at heq
    rw [heq] at hget ⊢
    -- Where the marker is erased, the entry was raised beyond the probed time.
    have hraised : id = i → request.key = "*" ∨ request.key = scope → False := by
      rintro rfl hcovers
      have hcovers' : request.key = "*" ∨ tracked.scope = some request.key := by
        rcases hcovers with hstar | hk
        · exact .inl hstar
        · exact .inr (hk ▸ hscope)
      obtain ⟨hkey, hlt⟩ := hok hallowed tracked hmem hid hcovers' e he
      simp only [PoolScheduler.storeCooldown, CandidateTable.get?_modify, if_true, hcand,
        Option.map_some, Option.some.injEq] at hget
      rw [← hget, hkey, ExtTreeMap.getElem?_alter_self, Option.some.injEq] at hcool
      have := Nat.le_max_right (candidate.cooldowns[request.key]?.getD 0) request.retryAtMs
      omega
    simp only [PoolScheduler.storeCooldown]
    split
    · next hstar =>
      refine Finset.mem_filter.mpr ⟨hmark, fun hi => hraised hi.symm (.inl hstar)⟩
    · refine Finset.mem_erase.mpr ⟨?_, hmark⟩
      rintro ⟨⟩
      exact hraised rfl (.inr rfl)

/-- A forgotten candidate has no live probe left. -/
theorem Marked.removeNow_keeps (h : Marked p)
    (hmem : tracked ∈ p.leases) (hsub : ∀ key ∈ p.scheduler.halfOpen,
      tracked.probes key.1 key.2 = true → key ∈ s.halfOpen) {i : String}
    (hprobes : (tracked.refresh (s.removeNow id).1).probes i scope = true) :
    (i, scope) ∈ (s.removeNow id).1.halfOpen := by
  obtain ⟨hold, _, _, _, _, candidate, hget, _⟩ := probes_of_refresh hprobes
  refine Finset.mem_filter.mpr ⟨hsub _ (h.marked tracked hmem i scope hold) hold, ?_⟩
  rintro rfl
  rw [show (s.removeNow i).1.candidates = s.candidates.erase i from rfl,
    CandidateTable.get?_erase, if_pos rfl] at hget
  cases hget

theorem Marked.pool (h : Marked p) (op : PoolOp) (hok : KeepsProbes p (.pool op)) :
    Marked (p.step (.pool op)) := by
  -- An operation that erases no marker needs no condition.
  have hsame : (op.step p.scheduler).halfOpen = p.scheduler.halfOpen →
      Marked (p.step (.pool op)) := by
    intro heq
    refine h.refresh (List.Sublist.refl _) fun tracked hmem i scope hprobes => ?_
    rw [heq]
    exact h.marked tracked hmem i scope (probes_of_refresh hprobes).1
  cases op with
  | quiet op => exact hsame (p.scheduler.quiet_step op).halfOpen
  | upsert candidate => exact hsame rfl
  | remove id =>
    rcases p.scheduler.remove_cases id with ⟨_, heq⟩ | ⟨_, _, _, heq⟩ | ⟨_, _, _, heq⟩
    · exact hsame (by rw [PoolOp.step, heq])
    · exact hsame (by rw [PoolOp.step, heq]; rfl)
    · refine h.refresh (List.Sublist.refl _) fun tracked hmem i scope hprobes => ?_
      simp only [PoolOp.step, heq] at hprobes ⊢
      exact h.removeNow_keeps hmem (fun _ hk _ => hk) hprobes
  | recordSuccess id model now => exact h.recordSuccess hok
  | cool id request enforcePolicy => exact h.cool hok
  | clearCooldown id model =>
    rcases p.scheduler.clearCooldown_cases id model with heq | heq
    · exact hsame (by rw [PoolOp.step, heq])
    · exact hsame (by rw [PoolOp.step, heq]; rfl)

/-! ## Leases -/

/-- A release erases two markers at most, and none that another lease relies on. -/
theorem Marked.release (h : Marked p) {index : Nat} (hok : KeepsProbes p (.release index)) :
    Marked (p.step (.release index)) := by
  simp only [step]
  cases hget : p.leases[index]? with
  | none => exact h
  | some released =>
    refine h.refresh (List.eraseIdx_sublist _ _) fun tracked hmem i scope hprobes => ?_
    have hin : tracked ∈ p.leases := (List.eraseIdx_sublist _ _).mem hmem
    obtain ⟨hstar, hmodel⟩ := hok released hget tracked hmem
    -- The markers that the release itself leaves.
    have hleft : ∀ key ∈ p.scheduler.halfOpen, tracked.probes key.1 key.2 = true →
        key ∈ PoolScheduler.releasedMarkers p.scheduler.halfOpen released.lease.candidateId
          (some released.lease.model) := by
      intro key hkey hlive
      refine Finset.mem_erase.mpr ⟨?_, Finset.mem_erase.mpr ⟨?_, hkey⟩⟩
      · rintro rfl
        rw [hlive] at hstar
        cases hstar
      · rintro rfl
        rw [hlive] at hmodel
        cases hmodel
    have hlive := (probes_of_refresh hprobes).1
    unfold PoolScheduler.releaseForLane PoolScheduler.finalizeRetiredIfIdle at hprobes ⊢
    simp only at hprobes ⊢
    split
    · split
      · next hreleased hidle =>
        rw [if_pos hreleased, if_pos hidle] at hprobes
        exact h.removeNow_keeps hin hleft hprobes
      · exact hleft _ (h.marked tracked hin i scope hlive) hlive
    · exact hleft _ (h.marked tracked hin i scope hlive) hlive

theorem mem_expiredEntries :
    e ∈ expiredEntries candidate scope now ↔
      candidate.cooldowns[e.1]? = some e.2 ∧ e.2 ≤ now ∧ asciiLower e.1 = scope := by
  obtain ⟨key, time⟩ := e
  simp only [expiredEntries, List.mem_filter, ExtTreeMap.mem_toList_iff_getElem?_eq_some,
    Bool.and_eq_true, decide_eq_true_eq]

/-- A new record is filed under the scope of its reservation. -/
theorem track_keyed {lease : Lease}
    (he : e ∈ (track s lease now).entries) :
    (track s lease now).scope = some (asciiLower e.1) := by
  unfold track at he ⊢
  cases hget : s.candidates.get? lease.candidateId with
  | none => simp [hget] at he
  | some candidate =>
    cases hscope : halfOpenScope candidate lease.model now with
    | none => simp [hget, hscope] at he
    | some scope =>
      simp only [hget, Option.bind_some, hscope, Option.map_some, Option.getD_some] at he ⊢
      rw [(mem_expiredEntries.mp he).2.2]

/-- Adding a lease that probes only what nobody probes, under a marker of its own. -/
theorem Marked.cons (h : Marked p) {new : TrackedLease}
    (hsub : p.scheduler.halfOpen ⊆ s.halfOpen)
    (hkeyed : ∀ e ∈ new.entries, new.scope = some (asciiLower e.1))
    (hnew : ∀ id scope, new.probes id scope = true →
      (id, scope) ∉ p.scheduler.halfOpen ∧ (id, scope) ∈ s.halfOpen) :
    Marked ⟨s, new :: p.leases⟩ where
  marked := by
    intro tracked hmem id scope hprobes
    rcases List.mem_cons.mp hmem with rfl | hmem
    · exact (hnew id scope hprobes).2
    · exact hsub (h.marked tracked hmem id scope hprobes)
  keyed := by
    intro tracked hmem
    rcases List.mem_cons.mp hmem with rfl | hmem
    · exact hkeyed
    · exact h.keyed tracked hmem
  exclusive := by
    intro id scope
    rw [List.countP_cons]
    split
    · next hprobes =>
      -- The marker was free, so no lease was probing the scope.
      have hzero : p.leases.countP (·.probes id scope) = 0 := by
        rw [List.countP_eq_zero]
        intro tracked hmem hlive
        exact (hnew id scope hprobes).1 (h.marked tracked hmem id scope hlive)
      exact Nat.le_of_eq (congrArg (· + 1) hzero)
    · exact h.exclusive id scope

/-- A reservation that is a probe takes a marker nobody has. -/
theorem Marked.reserve (h : Marked p) {lease : Lease}
    (hok : KeepsProbes p (.reserve lease now)) : Marked (p.step (.reserve lease now)) := by
  simp only [step]
  rcases p.scheduler.reserveForLane_cases lease.candidateId lease.model now lease.lane with
    heq | ⟨candidate, hget, _, ⟨heq, hplain⟩ | ⟨scope, hscope, hfree, _, heq⟩⟩
  · rw [heq]
    exact h
  · -- No marker is set, and the new lease is no probe.
    have hnone : (track p.scheduler lease now).scope = none := by
      rcases hplain with hempty | hnone
      · exact hok hempty
      · simp only [track, hget, Option.bind_some, hnone]
    rw [heq]
    refine h.cons (Finset.Subset.refl _) (fun _ => track_keyed) fun id scope hprobes => ?_
    obtain ⟨_, hscope, _⟩ := probes_iff.mp hprobes
    rw [hnone] at hscope
    cases hscope
  · have htracked : (track p.scheduler lease now).scope = some scope := by
      simp only [track, hget, Option.bind_some, hscope]
    rw [heq]
    refine h.cons (Finset.subset_insert _ _) (fun _ => track_keyed) fun id sc hprobes => ?_
    obtain ⟨rfl, hsc, _⟩ := probes_iff.mp hprobes
    obtain rfl : scope = sc := Option.some.inj (htracked.symm.trans hsc)
    exact ⟨hfree, Finset.mem_insert_self _ _⟩

/-! ## Runs -/

theorem Marked.step (h : Marked p) (op : LeaseOp) (hok : KeepsProbes p op) :
    Marked (p.step op) := by
  cases op with
  | pool op => exact h.pool op hok
  | reserve lease now => exact h.reserve hok
  | release index => exact h.release hok

theorem Marked.start : Marked {} where
  marked := fun _ hmem => absurd hmem List.not_mem_nil
  keyed := fun _ hmem => absurd hmem List.not_mem_nil
  exclusive := fun _ _ => Nat.zero_le 1

/-- In every run whose steps take no marker from a live probe, at most one outstanding lease probes
a scope of a candidate, in every state reached. -/
theorem half_open_exclusive (ops : List LeaseOp)
    (h : StepsMeet TrackedPool.step KeepsProbes {} ops) :
    Exclusive (run TrackedPool.step {} ops) := by
  have hstep : ∀ p op, Marked p → KeepsProbes p op → Marked (TrackedPool.step p op) :=
    fun _ op hp hok => hp.step op hok
  exact (run_invariant hstep Marked.start h).exclusive

/-- A source cools down for `m` until 10. -/
def coolingSource : List LeaseOp :=
  [.pool (.upsert { id := "a", kind := .apiSource, sourceId := "s" }),
    .pool (.cool "a" { scope := "m", policyModel := "m", retryAtMs := 10, reason := .transient }
      false)]

/-- At 20 the source is probed, a second probe is refused, and the probe is released. -/
def probedOnce : List LeaseOp :=
  coolingSource ++
    [.reserve ⟨"a", "m", .text⟩ 20, .reserve ⟨"a", "m", .text⟩ 20, .release 0]

theorem half_open_exclusive_probedOnce :
    (run TrackedPool.step {} (probedOnce.take 4)).leases.countP (·.probes "a" "m") = 1 ∧
      Exclusive (run TrackedPool.step {} probedOnce) := by
  refine ⟨by decide +kernel, half_open_exclusive probedOnce ⟨trivial, ?_, ?_, ?_, ?_, trivial⟩⟩
  · intro _ tracked hmem
    exact absurd hmem List.not_mem_nil
  · exact fun hempty => absurd hempty (by decide)
  · exact fun hempty => absurd hempty (by decide)
  · intro released _ other hmem
    exact absurd (List.length_pos_of_mem hmem) (by decide +kernel)

/-- A lease that was out before the cooldown is released while the source is being probed: the
release takes the probe's marker, and a second probe of the same cooldown is let in. -/
def probedTwice : List LeaseOp :=
  [.pool (.upsert { id := "a", kind := .apiSource, sourceId := "s" }),
    .reserve ⟨"a", "m", .text⟩ 0,
    .pool (.cool "a" { scope := "m", policyModel := "m", retryAtMs := 10, reason := .transient }
      false),
    .reserve ⟨"a", "m", .text⟩ 20, .release 1, .reserve ⟨"a", "m", .text⟩ 20]

theorem two_live_probes :
    (run TrackedPool.step {} probedTwice).leases.countP (·.probes "a" "m") = 2 ∧
      ¬ Exclusive (run TrackedPool.step {} probedTwice) := by
  have htwo : (run TrackedPool.step {} probedTwice).leases.countP (·.probes "a" "m") = 2 := by
    decide +kernel
  refine ⟨htwo, fun h => ?_⟩
  have hone := h "a" "m"
  rw [htwo] at hone
  exact absurd hone (by decide)

end TrackedPool

end Zenith.Scheduler
