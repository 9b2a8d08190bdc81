import Zenith.Scheduler.Operations

/-!
# The selection contract

What a caller of `select` may rely on, for every scheduler state, lane and request:

* a bound response goes to its owner or nowhere, and to its owner exactly when the owner is
  selectable;
* otherwise a candidate is returned exactly when a selectable one exists, and it is selectable;
* a selected candidate can be reserved at once;
* prompt affinity deviates from the preference maximum only within its limits.

`selectable` is the one conjunction both paths filter by. It does not read the affinity caches, so
the pruning that selection does on the way does not change it.
-/

namespace Zenith.Scheduler

open Std Zenith.Text Zenith.Tables Zenith.Comparators

namespace PoolScheduler

variable (s : PoolScheduler) (request : SelectionRequest) (lane : InFlightLane)

/-! ## Lookups -/

theorem mem_eligibleFor {candidate : RuntimeCandidate} :
    candidate ∈ s.eligibleFor request lane ↔
      s.candidates.get? candidate.id = some candidate ∧
        s.selectable request lane candidate = true := by
  rw [eligibleFor, List.mem_filter, CandidateTable.mem_values]

/-- The candidate the request's response key is bound to. -/
def boundOwner : Option String :=
  request.responseAffinityKey.bind fun key => s.responseAffinity.owner? key request.nowMs

/-- The candidate the request's prompt key is bound to. -/
def promptBinding : Option String :=
  request.promptAffinityKey.bind fun key => s.promptAffinity.owner? key request.nowMs

theorem promptOwner_snd : (s.promptOwner request).2 = s.promptBinding request := by
  unfold promptOwner promptBinding
  cases request.promptAffinityKey with
  | none => rfl
  | some key => exact s.promptAffinity.get_snd key request.nowMs

/-- Reading the prompt owner prunes the prompt cache and nothing else. -/
theorem promptOwner_fst :
    ∃ cache, (s.promptOwner request).1 = { s with promptAffinity := cache } := by
  unfold promptOwner
  cases request.promptAffinityKey with
  | none => exact ⟨s.promptAffinity, rfl⟩
  | some key => exact ⟨_, rfl⟩

/-- A live binding decides the selection; without one the preference does. -/
theorem selectFor_eq :
    ∃ cache, s.selectFor request lane =
      match s.boundOwner request with
      | some owner => selectOwner { s with responseAffinity := cache } request lane
          (request.responseAffinityKey.getD "") owner
      | none => selectPreferred { s with responseAffinity := cache } request lane := by
  unfold selectFor boundOwner
  cases request.responseAffinityKey with
  | none => exact ⟨s.responseAffinity, rfl⟩
  | some key =>
    refine ⟨s.responseAffinity.prune request.nowMs, ?_⟩
    simp only [AffinityCache.get_snd, Option.bind_some, Option.getD_some]
    cases s.responseAffinity.owner? key request.nowMs <;> rfl

/-! ## Bound responses -/

theorem selectOwner_snd (key owner : String) :
    (∀ selection, (s.selectOwner request lane key owner).2 = some selection →
        selection.candidateId = owner) ∧
      ((s.selectOwner request lane key owner).2.isSome ↔
        ∃ candidate, s.candidates.get? owner = some candidate ∧
          s.selectable request lane candidate = true) := by
  unfold selectOwner
  cases hget : s.candidates.get? owner with
  | none => simp
  | some candidate =>
    cases hsel : s.selectable request lane candidate with
    | false => simp [hsel]
    | true =>
      simp only [Option.any_some, hsel, if_true, diagnostics, hget, Option.map_some,
        Option.some.injEq, Option.isSome_some, true_iff]
      refine ⟨?_, candidate, rfl, hsel⟩
      rintro selection rfl
      rfl

/-! ## Selection by preference -/

theorem baseline?_eq_none : s.baseline? request lane = none ↔ s.eligibleFor request lane = [] := by
  rw [baseline?, maxBy?_eq_none]

/-- The chosen candidate is the baseline, or a selectable prompt owner that affinity allows. -/
theorem chooseCandidate_cases (owner : Option String) (baseline : RuntimeCandidate) :
    s.chooseCandidate request lane owner baseline = baseline ∨
      ∃ candidate ∈ s.eligibleFor request lane,
        s.chooseCandidate request lane owner baseline = candidate ∧
        owner = some candidate.id ∧
        s.promptAffinityAllows candidate baseline lane
          (request.promptAffinityKey.any fun key => startsWith key "cache:") = true := by
  unfold chooseCandidate
  dsimp only
  cases hfound : (owner.bind fun candidateId => (s.eligibleFor request lane).find? fun candidate =>
      decide (candidate.id = candidateId)).filter fun preferred =>
        decide (preferred.id ≠ baseline.id) && s.promptAffinityAllows preferred baseline lane
          (request.promptAffinityKey.any fun key => startsWith key "cache:") with
  | none => exact .inl rfl
  | some candidate =>
    obtain ⟨hbind, hallowed⟩ := Option.filter_eq_some_iff.mp hfound
    obtain ⟨id, hid, hfind⟩ := Option.bind_eq_some_iff.mp hbind
    have hmem := List.mem_of_find?_eq_some hfind
    have heq : candidate.id = id := by simpa using List.find?_some hfind
    rw [Bool.and_eq_true] at hallowed
    exact .inr ⟨candidate, hmem, rfl, by rw [hid, heq], hallowed.2⟩

/-- What selection by preference returns: nothing when no candidate is selectable, else the
candidate chosen from the preference maximum and the prompt owner. -/
theorem selectPreferred_snd :
    (s.selectPreferred request lane).2.map (·.candidateId) =
      (s.baseline? request lane).map fun baseline =>
        (s.chooseCandidate request lane (s.promptBinding request) baseline).id := by
  obtain ⟨cache, hcache⟩ := s.promptOwner_fst request
  unfold selectPreferred
  dsimp only
  rw [promptOwner_snd, hcache]
  rw [show baseline? { s with promptAffinity := cache } request lane =
    s.baseline? request lane from rfl]
  cases hbase : s.baseline? request lane with
  | none => rfl
  | some baseline =>
    have hmem : baseline ∈ s.eligibleFor request lane := maxBy?_mem hbase
    have hchosen : s.chooseCandidate request lane (s.promptBinding request) baseline ∈
        s.eligibleFor request lane := by
      rcases s.chooseCandidate_cases request lane (s.promptBinding request) baseline with
        heq | ⟨candidate, hcand, heq, _⟩
      · rwa [heq]
      · rwa [heq]
    have hget := ((s.mem_eligibleFor request lane).mp hchosen).1
    simp only [Option.map_some]
    rw [show chooseCandidate { s with promptAffinity := cache } request lane
      (s.promptBinding request) baseline =
        s.chooseCandidate request lane (s.promptBinding request) baseline from rfl]
    simp only [diagnostics, hget, Option.map_some]

theorem selectPreferred_isSome :
    (s.selectPreferred request lane).2.isSome ↔
      ∃ candidate ∈ s.candidates.values, s.selectable request lane candidate = true := by
  have hsnd := congrArg Option.isSome (s.selectPreferred_snd request lane)
  simp only [Option.isSome_map] at hsnd
  rw [hsnd, ← Option.ne_none_iff_isSome, Ne, baseline?_eq_none, List.eq_nil_iff_forall_not_mem]
  simp only [eligibleFor, List.mem_filter, not_forall, not_not]

variable {selection : Selection}

theorem selectPreferred_mem (h : (s.selectPreferred request lane).2 = some selection) :
    ∃ baseline candidate, s.baseline? request lane = some baseline ∧
      candidate ∈ s.eligibleFor request lane ∧ candidate.id = selection.candidateId ∧
      s.chooseCandidate request lane (s.promptBinding request) baseline = candidate := by
  have hsnd := s.selectPreferred_snd request lane
  rw [h, Option.map_some, eq_comm, Option.map_eq_some_iff] at hsnd
  obtain ⟨baseline, hbase, hid⟩ := hsnd
  refine ⟨baseline, _, hbase, ?_, hid, rfl⟩
  rcases s.chooseCandidate_cases request lane (s.promptBinding request) baseline with
    heq | ⟨candidate, hcand, heq, _⟩
  · rw [heq]
    exact maxBy?_mem hbase
  · rwa [heq]

/-- The limits of prompt affinity. -/
theorem promptAffinityAllows_limits {preferred baseline : RuntimeCandidate} {explicit : Bool}
    (h : s.promptAffinityAllows preferred baseline lane explicit = true) :
    routingTier preferred = routingTier baseline ∧ preferred.kind = baseline.kind ∧
      s.inFlightCount preferred.id lane ≤ s.inFlightCount baseline.id lane + 1 ∧
      (preferred.kind = .apiSource → baseline.priority ≤ preferred.priority) := by
  unfold promptAffinityAllows at h
  split at h
  · cases h
  · next hguard =>
    rw [not_or, not_or, not_not, not_not, Nat.not_lt] at hguard
    obtain ⟨htier, hpref, hload⟩ := hguard
    have hkind : preferred.kind = baseline.kind := by
      cases hp : preferred.kind <;> cases hb : baseline.kind <;>
        simp [candidateKindPreference, hp, hb] at hpref ⊢
    refine ⟨htier, hkind, Nat.le_trans hload satAdd_le, ?_⟩
    intro hapi
    split at h
    · cases h
    · next hprio => exact Int.not_lt.mp fun hlt => hprio ⟨hapi, hkind ▸ hapi, hlt⟩

/-! ## Reservation after selection -/

/-- A selectable candidate can be reserved: the lane is free for it, and if its reservation is a
probe, its scope is not being probed. -/
theorem reserveForLane_of_selectable {candidate : RuntimeCandidate}
    (hget : s.candidates.get? candidate.id = some candidate)
    (hsel : s.selectable request lane candidate = true) :
    (s.reserveForLane candidate.id request.model request.nowMs lane).2 = true := by
  simp only [selectable, isEligible, Bool.and_eq_true] at hsel
  obtain ⟨⟨_, hlane⟩, _, hprobe⟩ := hsel
  unfold reserveForLane
  simp only [hget, hlane, Bool.not_true, Bool.false_eq_true, if_false]
  cases hscope : halfOpenScope candidate request.model request.nowMs with
  | none => simp
  | some scope =>
    rw [hscope, Option.all_some, decide_eq_true_eq] at hprobe
    split
    · rfl
    · next hkey =>
      rw [if_neg]
      split at hkey
      · cases hkey
      · rw [Option.map_some, Option.some.injEq] at hkey
        exact hkey ▸ hprobe

/-! ## The contract -/

/-- A live response binding: its owner is returned exactly when it is selectable. -/
theorem selectFor_bound {owner : String} (h : s.boundOwner request = some owner) :
    (∀ selection, (s.selectFor request lane).2 = some selection →
        selection.candidateId = owner) ∧
      ((s.selectFor request lane).2.isSome ↔
        ∃ candidate, s.candidates.get? owner = some candidate ∧
          s.selectable request lane candidate = true) := by
  obtain ⟨cache, hselect⟩ := s.selectFor_eq request lane
  rw [hselect, h]
  exact selectOwner_snd { s with responseAffinity := cache } request lane _ owner

/-- No live response binding: selection is by preference. -/
theorem selectFor_unbound (h : s.boundOwner request = none) :
    ∃ cache, (s.selectFor request lane).2 =
      (selectPreferred { s with responseAffinity := cache } request lane).2 := by
  obtain ⟨cache, hselect⟩ := s.selectFor_eq request lane
  exact ⟨cache, by rw [hselect, h]⟩

theorem selectFor_unbound_isSome (h : s.boundOwner request = none) :
    (s.selectFor request lane).2.isSome ↔
      ∃ candidate ∈ s.candidates.values, s.selectable request lane candidate = true := by
  obtain ⟨cache, hselect⟩ := s.selectFor_unbound request lane h
  rw [hselect]
  exact selectPreferred_isSome { s with responseAffinity := cache } request lane

theorem selected_selectable (h : (s.selectFor request lane).2 = some selection) :
    ∃ candidate, s.candidates.get? selection.candidateId = some candidate ∧
      s.selectable request lane candidate = true := by
  cases hbound : s.boundOwner request with
  | some owner =>
    obtain ⟨hid, hsome⟩ := s.selectFor_bound request lane hbound
    rw [hid selection h]
    exact hsome.mp (by rw [h]; rfl)
  | none =>
    obtain ⟨cache, hselect⟩ := s.selectFor_unbound request lane hbound
    obtain ⟨_, candidate, _, hmem, hid, _⟩ :=
      selectPreferred_mem { s with responseAffinity := cache } request lane (hselect.symm.trans h)
    obtain ⟨hget, hsel⟩ := (s.mem_eligibleFor request lane).mp hmem
    exact ⟨candidate, hid ▸ hget, hsel⟩

/-- A deviation from the preference maximum is the prompt owner, within the limits of affinity. -/
theorem selected_deviation (hbound : s.boundOwner request = none)
    {maximum : RuntimeCandidate} (h : (s.selectFor request lane).2 = some selection)
    (hmax : s.baseline? request lane = some maximum) (hne : selection.candidateId ≠ maximum.id) :
    ∃ candidate, s.candidates.get? selection.candidateId = some candidate ∧
      s.promptBinding request = some candidate.id ∧
      routingTier candidate = routingTier maximum ∧ candidate.kind = maximum.kind ∧
      s.inFlightCount candidate.id lane ≤ s.inFlightCount maximum.id lane + 1 ∧
      (candidate.kind = .apiSource → maximum.priority ≤ candidate.priority) := by
  obtain ⟨cache, hselect⟩ := s.selectFor_unbound request lane hbound
  obtain ⟨baseline, chosen, hbase, hmem, hid, hchosen⟩ :=
    selectPreferred_mem { s with responseAffinity := cache } request lane (hselect.symm.trans h)
  have hbaseline : baseline = maximum := Option.some.inj (hbase.symm.trans hmax)
  subst hbaseline
  have hget := ((s.mem_eligibleFor request lane).mp hmem).1
  rcases s.chooseCandidate_cases request lane (s.promptBinding request) baseline with
    heq | ⟨candidate, _, heq, howner, hallows⟩
  · exact absurd (hid.symm.trans (congrArg _ (hchosen.symm.trans heq))) hne
  · have hcand : candidate = chosen := heq.symm.trans hchosen
    subst hcand
    exact ⟨candidate, hid ▸ hget, howner, s.promptAffinityAllows_limits lane hallows⟩

/-- The selection contract: (1) a live response binding is mandatory; (2) without one a candidate
is returned exactly when a selectable one exists, and it is selectable; (3) what is selected can be
reserved at once; (4) prompt affinity deviates from the preference maximum only within limits. -/
theorem selection_contract :
    (∀ owner, s.boundOwner request = some owner →
      (∀ selection, (s.selectFor request lane).2 = some selection →
        selection.candidateId = owner) ∧
      ((s.selectFor request lane).2.isSome ↔
        ∃ candidate, s.candidates.get? owner = some candidate ∧
          s.selectable request lane candidate = true)) ∧
    (s.boundOwner request = none →
      ((s.selectFor request lane).2.isSome ↔
        ∃ candidate ∈ s.candidates.values, s.selectable request lane candidate = true) ∧
      ∀ selection, (s.selectFor request lane).2 = some selection →
        ∃ candidate, s.candidates.get? selection.candidateId = some candidate ∧
          s.selectable request lane candidate = true) ∧
    (∀ selection, (s.selectFor request lane).2 = some selection →
      ((s.selectFor request lane).1.reserveForLane selection.candidateId request.model
        request.nowMs lane).2 = true) ∧
    (s.boundOwner request = none →
      ∀ selection maximum, (s.selectFor request lane).2 = some selection →
        s.baseline? request lane = some maximum → selection.candidateId ≠ maximum.id →
        ∃ candidate, s.candidates.get? selection.candidateId = some candidate ∧
          s.promptBinding request = some candidate.id ∧
          routingTier candidate = routingTier maximum ∧ candidate.kind = maximum.kind ∧
          s.inFlightCount candidate.id lane ≤ s.inFlightCount maximum.id lane + 1 ∧
          (candidate.kind = .apiSource → maximum.priority ≤ candidate.priority)) := by
  refine ⟨fun owner h => s.selectFor_bound request lane h, fun hbound => ⟨?_, ?_⟩, ?_, ?_⟩
  · exact s.selectFor_unbound_isSome request lane hbound
  · exact fun selection h => s.selected_selectable request lane h
  · intro selection h
    obtain ⟨candidate, hget, hsel⟩ := s.selected_selectable request lane h
    have hid := CandidateTable.get?_id hget
    obtain ⟨response, prompt, hfst, _, _⟩ := s.selectFor_fst request lane
    rw [hfst, ← hid]
    rw [← hid] at hget
    -- The caches selection has pruned are not read by `selectable` or by the reservation.
    exact reserveForLane_of_selectable
      { s with responseAffinity := response, promptAffinity := prompt } request lane hget hsel
  · intro hbound selection maximum h hmax hne
    exact s.selected_deviation request lane hbound h hmax hne

end PoolScheduler

end Zenith.Scheduler
