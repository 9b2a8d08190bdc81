import Zenith.Lib.Rotation
import Zenith.Scheduler.Preference

/-!
# Fair rotation

Requests that come one at a time, each selected for, reserved and released before the next one, under
`adaptive` routing among OAuth accounts that no earlier part of the comparison separates.

`Level` is what keeps the rotation the deciding part: one routing quota, one number of requests in
flight, no live binding, and everybody selectable for all requests to come. A round leaves it as it
was and dispatches an account that was dispatched least (`Level.round`). While the counters do not
saturate, the rounds are therefore a fair rotation (`rounds_share`).

Requests in flight on the lane and the reserve of a protected account are compared before the
rotation: an account that has either gets fewer turns (`rotation_is_compared_last`).
-/

namespace Zenith.Scheduler

open Std Zenith.Text Zenith.Tables Zenith.Comparators Zenith.Rotation

/-! ## Dispatch counters -/

namespace SchedulerActivity

theorem dispatchCount_reserve (a : SchedulerActivity) (id id' model : String) (lane : InFlightLane) :
    (a.reserve id model lane).dispatchCount id' lane =
      if id = id' then satAdd 64 (a.dispatchCount id lane) 1 else a.dispatchCount id' lane := by
  have hmap : (a.reserve id model lane).dispatchMap lane = bump 64 (a.dispatchMap lane) id 1 := by
    cases lane <;> rfl
  unfold dispatchCount
  rw [hmap, counter_bump]

theorem dispatchMap_releaseActiveModel (a : SchedulerActivity) (id : String) (model : Option String)
    (lane lane' : InFlightLane) :
    (a.releaseActiveModel id model lane).dispatchMap lane' = a.dispatchMap lane' := by
  unfold releaseActiveModel
  simp only
  split
  · split
    · cases lane' <;> rfl
    · rfl
  · rfl

theorem dispatchCount_release (a : SchedulerActivity) (id id' : String) (model : Option String)
    (lane : InFlightLane) :
    (a.release id model lane).1.dispatchCount id' lane = a.dispatchCount id' lane := by
  unfold release dispatchCount
  split
  · rw [dispatchMap_releaseActiveModel]
    cases lane <;> rfl
  · rfl

end SchedulerActivity

/-- A key that is bound to nobody stays so when the cache is pruned. -/
theorem AffinityCache.owner?_prune_eq_none {cache : AffinityCache} {key : String} {nowMs : Nat}
    (h : cache.owner? key nowMs = none) (pruneMs : Nat) :
    (cache.prune pruneMs).owner? key nowMs = none := by
  unfold owner? prune at *
  rw [Option.map_eq_none_iff, Option.filter_eq_none_iff] at h ⊢
  intro binding hget
  rw [ExtTreeMap.getElem?_filter', Option.filter_eq_some_iff] at hget
  exact h binding hget.1

namespace PoolScheduler

/-! ## Rounds -/

/-- One request from selection to release, and the candidate it was dispatched to. -/
def round (s : PoolScheduler) (request : SelectionRequest) (lane : InFlightLane) :
    PoolScheduler × Option String :=
  let selected := s.selectFor request lane
  match selected.2 with
  | none => (selected.1, none)
  | some selection =>
    let reserved := selected.1.reserveForLane selection.candidateId request.model request.nowMs lane
    if reserved.2 then
      ((reserved.1.releaseForLane selection.candidateId (some request.model) lane).1,
        some selection.candidateId)
    else (reserved.1, none)

def rounds (s : PoolScheduler) (lane : InFlightLane) :
    List SelectionRequest → PoolScheduler × List String
  | [] => (s, [])
  | request :: rest =>
    let first := s.round request lane
    let others := rounds first.1 lane rest
    (others.1, first.2.toList ++ others.2)

/-- The accounts differ in what the rotation compares at most, for all requests to come. -/
structure Level (s : PoolScheduler) (lane : InFlightLane) (load : Nat)
    (requests : List SelectionRequest) : Prop where
  strategy : s.routingStrategy = .adaptive
  account : ∀ candidate ∈ s.candidates.values, candidate.kind = .oauthAccount
  quota : ∀ left ∈ s.candidates.values, ∀ right ∈ s.candidates.values,
    s.routingQuota left = s.routingQuota right
  inFlight : ∀ candidate ∈ s.candidates.values, s.inFlightCount candidate.id lane = load
  eligible : ∀ request ∈ requests, ∀ candidate ∈ s.candidates.values,
    s.selectable request lane candidate = true
  unbound : ∀ request ∈ requests, s.boundOwner request = none ∧ s.promptBinding request = none

variable {s : PoolScheduler} {lane : InFlightLane} {load : Nat} {request : SelectionRequest}
  {requests : List SelectionRequest}

/-! ## The preference among level accounts -/

theorem Level.comparePreference (h : s.Level lane load requests) {left right : RuntimeCandidate}
    (hleft : left ∈ s.candidates.values) (hright : right ∈ s.candidates.values) :
    s.comparePreference left right lane = s.tieBreak lane left right := by
  have hstanding : s.standing left right = .eq := by
    have hknown : s.quotaKnown left = s.quotaKnown right := by
      unfold quotaKnown
      rw [h.quota left hleft right hright]
    simp [standing, compareLex, compareOn, routingTier, candidateKindPreference, apiPriority,
      subscriptionKnown, subscriptionValue, h.strategy, h.account left hleft, h.account right hright,
      hknown]
  have hquota : s.compareQuotaAndReset left right = .eq := by
    unfold compareQuotaAndReset
    rw [h.quota left hleft right hright]
    cases s.routingQuota right with
    | available quota => simp [absDiff, quotaNoiseTieBps]
    | unknown => rfl
    | exhausted => rfl
    | stale => rfl
  rw [comparePreference_eq, hstanding, hquota]
  rfl

variable {candidate : RuntimeCandidate}

/-- The preferred account was dispatched least, and has the smallest id of those dispatched as
often. -/
theorem Level.baseline (h : s.Level lane load (request :: requests)) {chosen : RuntimeCandidate}
    (hbase : s.baseline? request lane = some chosen)
    (hmem : candidate ∈ s.candidates.values) :
    s.dispatchCount chosen.id lane ≤ s.dispatchCount candidate.id lane ∧
      (s.dispatchCount chosen.id lane = s.dispatchCount candidate.id lane →
        compare chosen.id candidate.id ≠ .gt) := by
  have heligible : s.eligibleFor request lane = s.candidates.values :=
    List.filter_eq_self.mpr (h.eligible request List.mem_cons_self)
  unfold baseline? at hbase
  rw [heligible] at hbase
  have horder : StrictOrderOn (fun left right => s.comparePreference left right lane)
      RuntimeCandidate.id s.candidates.values :=
    { swap := fun left _ right _ => s.comparePreference_swap lane left right
      distinct := fun left _ right _ => s.comparePreference_ne_eq lane
      trans := fun a ha b hb c hc hab hbc => by
        rw [h.comparePreference ha hb] at hab
        rw [h.comparePreference hb hc] at hbc
        rw [h.comparePreference ha hc]
        exact TransCmp.gt_trans hab hbc }
  have hunbeaten := horder.unbeaten (CandidateTable.nodup_values _) hbase candidate hmem
  have hchosen := maxBy?_mem hbase
  rw [h.comparePreference hmem hchosen] at hunbeaten
  have hkeys : s.tieBreak lane candidate chosen =
      (compare (s.dispatchCount chosen.id lane) (s.dispatchCount candidate.id lane)).then
        (compare chosen.id candidate.id) := by
    simp [tieBreak, compareLex, compareOn, compareIds, loadKey, rotationKey, rotationDispatchCount,
      h.strategy, h.account candidate hmem, h.account chosen hchosen, h.inFlight candidate hmem,
      h.inFlight chosen hchosen, compare_neg_neg]
  rw [hkeys] at hunbeaten
  constructor
  · by_contra hlt
    rw [Nat.compare_eq_gt.mpr (Nat.not_le.mp hlt)] at hunbeaten
    exact hunbeaten rfl
  · intro heq
    rw [heq, Std.compare_self] at hunbeaten
    exact hunbeaten

/-! ## One round -/

/-- Without a binding a selection returns the preferred candidate and prunes the caches. -/
theorem selectFor_of_unbound (hbound : s.boundOwner request = none)
    (hprompt : s.promptBinding request = none) :
    (∃ response prompt, (s.selectFor request lane).1 =
        { s with responseAffinity := response, promptAffinity := prompt } ∧
      (∀ key nowMs, s.responseAffinity.owner? key nowMs = none → response.owner? key nowMs = none) ∧
      ∀ key nowMs, s.promptAffinity.owner? key nowMs = none → prompt.owner? key nowMs = none) ∧
    (s.selectFor request lane).2.map (·.candidateId) = (s.baseline? request lane).map (·.id) := by
  have hpreferred : ∀ cache : AffinityCache,
      ∃ prompt, (selectPreferred { s with responseAffinity := cache } request lane).1 =
          { s with responseAffinity := cache, promptAffinity := prompt } ∧
        ∀ key nowMs, s.promptAffinity.owner? key nowMs = none → prompt.owner? key nowMs = none := by
    intro cache
    unfold selectPreferred promptOwner
    cases request.promptAffinityKey with
    | none =>
      refine ⟨s.promptAffinity, ?_, fun _ _ hnone => hnone⟩
      dsimp only
      split <;> rfl
    | some key =>
      refine ⟨s.promptAffinity.prune request.nowMs, ?_, fun _ _ hnone =>
        AffinityCache.owner?_prune_eq_none hnone _⟩
      dsimp only
      split <;> rfl
  refine ⟨?_, ?_⟩
  · unfold selectFor
    cases hkey : request.responseAffinityKey with
    | none =>
      obtain ⟨prompt, hfst, hfades⟩ := hpreferred s.responseAffinity
      exact ⟨s.responseAffinity, prompt, hfst, fun _ _ hnone => hnone, hfades⟩
    | some key =>
      have howner : s.responseAffinity.owner? key request.nowMs = none := by
        simpa [boundOwner, hkey] using hbound
      obtain ⟨prompt, hfst, hfades⟩ := hpreferred (s.responseAffinity.prune request.nowMs)
      refine ⟨s.responseAffinity.prune request.nowMs, prompt, ?_,
        fun _ _ hnone => AffinityCache.owner?_prune_eq_none hnone _, hfades⟩
      dsimp only
      rw [AffinityCache.get_snd, howner]
      exact hfst
  · obtain ⟨cache, hselect⟩ := s.selectFor_unbound request lane hbound
    rw [hselect, selectPreferred_snd]
    have hnone : promptBinding { s with responseAffinity := cache } request = none := hprompt
    have hbase : baseline? { s with responseAffinity := cache } request lane =
        s.baseline? request lane := rfl
    rw [hnone, hbase]
    rfl

/-- The scheduler after a round of a candidate: the caches are pruned, the candidate's counters have
gone up and down, and no probe marker is new. -/
def AfterRound (s s' : PoolScheduler) (lane : InFlightLane) (request : SelectionRequest)
    (id : String) : Prop :=
  ∃ response prompt halfOpen,
    s' = { s with
      responseAffinity := response
      promptAffinity := prompt
      halfOpen := halfOpen
      activity :=
        ((s.activity.reserve id request.model lane).release id (some request.model) lane).1 } ∧
    (∀ key nowMs, s.responseAffinity.owner? key nowMs = none → response.owner? key nowMs = none) ∧
    (∀ key nowMs, s.promptAffinity.owner? key nowMs = none → prompt.owner? key nowMs = none) ∧
    halfOpen ⊆ s.halfOpen

/-- What the release of a round's lease leaves of the probe markers was there before the round. -/
theorem releasedMarkers_insert_subset {halfOpen : Finset (String × String)} {id model scope : String}
    (h : scope = "*" ∨ scope = asciiLower model) :
    releasedMarkers (insert (id, scope) halfOpen) id (some model) ⊆ halfOpen := by
  intro key hkey
  simp only [releasedMarkers, Finset.mem_erase, Finset.mem_insert] at hkey
  obtain ⟨hstar, hmodel, rfl | hmem⟩ := hkey
  · rcases h with rfl | rfl
    · exact absurd rfl hstar
    · exact absurd rfl hmodel
  · exact hmem

variable {id : String}

/-- A release takes the counted request off, and forgets nobody who is not retired. -/
theorem releaseForLane_of_counted {model : Option String}
    (hretired : id ∉ s.retiredCandidates) (hcounted : 0 < s.inFlightCount id lane) :
    (s.releaseForLane id model lane).1 =
      { s with
        halfOpen := releasedMarkers s.halfOpen id model
        activity := (s.activity.release id model lane).1 } := by
  have hreleased : (s.activity.release id model lane).2 = true := by
    rw [SchedulerActivity.release_of_pos model hcounted]
  unfold releaseForLane
  dsimp only
  rw [if_pos hreleased]
  exact if_neg fun hidle => hretired hidle.1

theorem round_of_selectable (hbound : s.boundOwner request = none) (hprompt : s.promptBinding request = none)
    (hbase : s.baseline? request lane = some candidate) :
    (s.round request lane).2 = some candidate.id ∧
      AfterRound s (s.round request lane).1 lane request candidate.id := by
  obtain ⟨⟨response, prompt, hfst, hresponse, hpromptFades⟩, hsnd⟩ :=
    @selectFor_of_unbound s lane request hbound hprompt
  obtain ⟨hget, hselectable⟩ := (s.mem_eligibleFor request lane).mp (maxBy?_mem hbase)
  rw [hbase, Option.map_some] at hsnd
  obtain ⟨selection, hselection, hid⟩ := Option.map_eq_some_iff.mp hsnd
  have hretired : candidate.id ∉ s.retiredCandidates := by
    simp only [selectable, isEligible, Bool.and_eq_true, decide_eq_true_eq] at hselectable
    exact hselectable.2.1.1.1.1.1.1
  unfold round
  dsimp only
  rw [hselection, hfst]
  dsimp only
  rw [hid]
  generalize hselected : ({ s with responseAffinity := response, promptAffinity := prompt } :
    PoolScheduler) = selected
  have hreserves : (selected.reserveForLane candidate.id request.model request.nowMs lane).2 =
      true := by
    rw [← hselected]
    exact reserveForLane_of_selectable { s with responseAffinity := response, promptAffinity := prompt }
      request lane hget hselectable
  have hcounted : 0 < (s.activity.reserve candidate.id request.model lane).inFlightCount
      candidate.id lane := by
    rw [SchedulerActivity.inFlightCount_reserve, if_pos ⟨rfl, rfl⟩]
    unfold satAdd
    omega
  rw [if_pos hreserves]
  refine ⟨rfl, ?_⟩
  rcases selected.reserveForLane_cases candidate.id request.model request.nowMs lane with
    hfails | ⟨stored, -, -, ⟨hreserve, -⟩ | ⟨scope, hscope, -, -, hreserve⟩⟩
  · rw [hfails] at hreserves
    cases hreserves
  · rw [hreserve]
    dsimp only
    rw [releaseForLane_of_counted (by rw [← hselected]; exact hretired)
      (by rw [← hselected]; exact hcounted), ← hselected]
    refine ⟨response, prompt, _, rfl, hresponse, hpromptFades, ?_⟩
    exact (Finset.erase_subset _ _).trans (Finset.erase_subset _ _)
  · rw [hreserve]
    dsimp only
    rw [releaseForLane_of_counted (by rw [← hselected]; exact hretired)
      (by rw [← hselected]; exact hcounted), ← hselected]
    exact ⟨response, prompt, _, rfl, hresponse, hpromptFades,
      releasedMarkers_insert_subset (halfOpenScope_eq hscope)⟩

/-! ## Level accounts stay level -/

variable {s' : PoolScheduler}

theorem AfterRound.dispatchCount (h : AfterRound s s' lane request id) (id' : String) :
    s'.dispatchCount id' lane =
      if id = id' then satAdd 64 (s.dispatchCount id lane) 1 else s.dispatchCount id' lane := by
  obtain ⟨response, prompt, halfOpen, rfl, -⟩ := h
  unfold PoolScheduler.dispatchCount
  rw [SchedulerActivity.dispatchCount_release, SchedulerActivity.dispatchCount_reserve]

/-- Away from the top of the counter a round leaves the requests in flight as they were. -/
theorem AfterRound.inFlightCount (h : AfterRound s s' lane request id) (hload : s.inFlightCount id lane < 2 ^ 32 - 1)
    (id' : String) (lane' : InFlightLane) : s'.inFlightCount id' lane' = s.inFlightCount id' lane' := by
  obtain ⟨response, prompt, halfOpen, rfl, -⟩ := h
  unfold PoolScheduler.inFlightCount at *
  have hexact : satAdd 32 (s.activity.inFlightCount id lane) 1 =
      s.activity.inFlightCount id lane + 1 := by
    unfold satAdd
    omega
  have hreserved := s.activity.inFlightCount_reserve id id request.model lane lane
  rw [if_pos ⟨rfl, rfl⟩, hexact] at hreserved
  rw [SchedulerActivity.inFlightCount_release _ (by omega), hreserved,
    SchedulerActivity.inFlightCount_reserve]
  split
  · next hsame =>
    obtain ⟨rfl, rfl⟩ := hsame
    rfl
  · rfl

/-- What was selectable before a round is so after it. -/
theorem AfterRound.selectable (h : AfterRound s s' lane request id) (hload : s.inFlightCount id lane < 2 ^ 32 - 1)
    {later : SelectionRequest}
    (hselectable : s.selectable later lane candidate = true) :
    s'.selectable later lane candidate = true := by
  have hinFlight := h.inFlightCount hload candidate.id .image
  have hlane : s'.laneAllows candidate lane = s.laneAllows candidate lane := by
    unfold laneAllows
    rw [hinFlight]
  obtain ⟨response, prompt, halfOpen, hstate, -, -, hsubset⟩ := h
  unfold PoolScheduler.selectable at *
  rw [hlane]
  rw [hstate]
  simp only [isEligible, Bool.and_eq_true, Option.all_eq_true, decide_eq_true_eq] at hselectable ⊢
  obtain ⟨hfirst, hrest, hprobe⟩ := hselectable
  exact ⟨hfirst, hrest, fun scope hscope hmem => hprobe scope hscope (hsubset hmem)⟩

theorem Level.after (h : s.Level lane load (request :: requests))
    (hload : load < 2 ^ 32 - 1)
    (hmem : candidate ∈ s.candidates.values)
    (hafter : AfterRound s s' lane request candidate.id) : s'.Level lane load requests := by
  have hbelow : s.inFlightCount candidate.id lane < 2 ^ 32 - 1 := by
    rw [h.inFlight candidate hmem]
    exact hload
  have hselectable : ∀ later ∈ requests, ∀ c ∈ s.candidates.values,
      s'.selectable later lane c = true := fun later hlater c hc =>
    hafter.selectable hbelow (h.eligible later (List.mem_cons_of_mem _ hlater) c hc)
  have hinFlight : ∀ c ∈ s.candidates.values, s'.inFlightCount c.id lane = load := fun c hc =>
    (hafter.inFlightCount hbelow c.id lane).trans (h.inFlight c hc)
  obtain ⟨response, prompt, halfOpen, rfl, hresponse, hprompt, -⟩ := hafter
  exact
    { strategy := h.strategy
      account := h.account
      quota := h.quota
      inFlight := hinFlight
      eligible := hselectable
      unbound := fun later hlater => by
        obtain ⟨howner, hbinding⟩ := h.unbound later (List.mem_cons_of_mem _ hlater)
        unfold boundOwner promptBinding at *
        simp only [Option.bind_eq_none_iff] at howner hbinding ⊢
        exact ⟨fun key hkey => hresponse key _ (howner key hkey),
          fun key hkey => hprompt key _ (hbinding key hkey)⟩ }

/-- A round among level accounts dispatches the preferred one. -/
theorem Level.round (h : s.Level lane load (request :: requests)) (hload : load < 2 ^ 32 - 1)
    (hnonempty : s.candidates.values ≠ []) :
    ∃ candidate ∈ s.candidates.values, s.baseline? request lane = some candidate ∧
      (s.round request lane).2 = some candidate.id ∧
      AfterRound s (s.round request lane).1 lane request candidate.id ∧
      (s.round request lane).1.Level lane load requests := by
  obtain ⟨hbound, hprompt⟩ := h.unbound request List.mem_cons_self
  have heligible : s.eligibleFor request lane = s.candidates.values :=
    List.filter_eq_self.mpr (h.eligible request List.mem_cons_self)
  cases hbase : s.baseline? request lane with
  | none =>
    rw [baseline?_eq_none, heligible] at hbase
    exact absurd hbase hnonempty
  | some candidate =>
    have hmem : candidate ∈ s.candidates.values := by
      rw [← heligible]
      exact maxBy?_mem hbase
    obtain ⟨hdispatched, hafter⟩ := round_of_selectable hbound hprompt hbase
    exact ⟨candidate, hmem, rfl, hdispatched, hafter, h.after hload hmem hafter⟩

/-! ## Runs -/

def candidateIds (s : PoolScheduler) : Finset String := (s.candidates.values.map (·.id)).toFinset

theorem card_candidateIds : s.candidateIds.card = s.candidates.values.length := by
  unfold candidateIds
  rw [List.toFinset_card_of_nodup (CandidateTable.nodup_values _), List.length_map]

theorem mem_candidateIds :
    id ∈ s.candidateIds ↔ ∃ candidate ∈ s.candidates.values, candidate.id = id := by
  unfold candidateIds
  rw [List.mem_toFinset, List.mem_map]

variable {s : PoolScheduler}

/-- While the counters together are below their limits, the rounds serve an account that was
dispatched least each time, and the counters say how often. -/
theorem rounds_leastServed (hload : load < 2 ^ 32 - 1) (requests : List SelectionRequest)
    (h : s.Level lane load requests) (hnonempty : s.candidates.values ≠ [])
    (hlimit : (∑ id ∈ s.candidateIds, s.dispatchCount id lane) + requests.length ≤
      s.candidateIds.card * (2 ^ 64 - 1)) :
    LeastServed s.candidateIds (fun id => s.dispatchCount id lane) (s.rounds lane requests).2 ∧
      (s.rounds lane requests).2.length = requests.length ∧
      (s.rounds lane requests).1.candidates = s.candidates ∧
      ∀ id, (s.rounds lane requests).1.dispatchCount id lane =
        s.dispatchCount id lane + (s.rounds lane requests).2.count id := by
  induction requests generalizing s with
  | nil => exact ⟨.nil _, rfl, rfl, fun _ => rfl⟩
  | cons request rest ih =>
    obtain ⟨candidate, hmem, hbase, hdispatched, hafter, hlevel⟩ := h.round hload hnonempty
    have hid : candidate.id ∈ s.candidateIds := mem_candidateIds.mpr ⟨candidate, hmem, rfl⟩
    have hleast : ∀ id ∈ s.candidateIds,
        s.dispatchCount candidate.id lane ≤ s.dispatchCount id lane := by
      intro id hmem'
      obtain ⟨other, hother, rfl⟩ := mem_candidateIds.mp hmem'
      exact (h.baseline hbase hother).1
    rw [List.length_cons] at hlimit
    have hroom : ∑ id ∈ s.candidateIds, s.dispatchCount id lane <
        s.candidateIds.card * (2 ^ 64 - 1) := by
      omega
    have hbelow := lt_of_sum_lt hleast hroom
    have hserve : (fun id => (s.round request lane).1.dispatchCount id lane) =
        serve (fun id => s.dispatchCount id lane) candidate.id := by
      funext id
      rw [hafter.dispatchCount]
      unfold serve
      split
      · next hsame =>
        subst hsame
        exact Nat.min_eq_left hbelow
      · rfl
    have hcandidates : (s.round request lane).1.candidates = s.candidates := by
      obtain ⟨response, prompt, halfOpen, hstate, -⟩ := hafter
      rw [hstate]
    have hids : (s.round request lane).1.candidateIds = s.candidateIds := by
      unfold candidateIds
      rw [hcandidates]
    have hsum : ∑ id ∈ s.candidateIds, (s.round request lane).1.dispatchCount id lane =
        (∑ id ∈ s.candidateIds, s.dispatchCount id lane) + 1 := by
      have := congrArg (fun f : String → Nat => ∑ id ∈ s.candidateIds, f id) hserve
      exact this.trans (sum_serve hid)
    obtain ⟨hserved, hlength, hsame, hcounts⟩ := ih hlevel (by rw [hcandidates]; exact hnonempty)
      (by rw [hids, hsum]; omega)
    have hpicks : (s.rounds lane (request :: rest)).2 =
        candidate.id :: ((s.round request lane).1.rounds lane rest).2 := by
      have happend : (s.rounds lane (request :: rest)).2 =
          (s.round request lane).2.toList ++ ((s.round request lane).1.rounds lane rest).2 := rfl
      rw [happend, hdispatched]
      rfl
    rw [hids, hserve] at hserved
    rw [hpicks]
    refine ⟨.cons hid hleast hserved, by rw [List.length_cons, hlength, List.length_cons],
      hsame.trans hcandidates, fun id => ?_⟩
    have hcount := congrFun (serve_add_count (fun id => s.dispatchCount id lane) candidate.id
      ((s.round request lane).1.rounds lane rest).2) id
    rw [← hserve] at hcount
    exact (hcounts id).trans hcount

/-- After `k` rounds from cleared counters each of `n` level accounts has been dispatched `k / n`
times, rounded down or up. -/
theorem rounds_share {requests : List SelectionRequest} (h : s.Level lane load requests)
    (hload : load < 2 ^ 32 - 1)
    (hcleared : ∀ candidate ∈ s.candidates.values, s.dispatchCount candidate.id lane = 0)
    (hlimit : requests.length ≤ s.candidates.values.length * (2 ^ 64 - 1)) :
    ∀ candidate ∈ s.candidates.values,
      ((s.rounds lane requests).2.count candidate.id =
          requests.length / s.candidates.values.length ∨
        (s.rounds lane requests).2.count candidate.id =
          (requests.length + s.candidates.values.length - 1) / s.candidates.values.length) ∧
      (s.rounds lane requests).1.dispatchCount candidate.id lane =
        (s.rounds lane requests).2.count candidate.id := by
  intro candidate hmem
  have hid : candidate.id ∈ s.candidateIds := mem_candidateIds.mpr ⟨candidate, hmem, rfl⟩
  have hzero : ∀ id ∈ s.candidateIds, s.dispatchCount id lane = 0 := by
    intro id hmem'
    obtain ⟨other, hother, rfl⟩ := mem_candidateIds.mp hmem'
    exact hcleared other hother
  have hsum : ∑ id ∈ s.candidateIds, s.dispatchCount id lane = 0 := Finset.sum_eq_zero hzero
  obtain ⟨hserved, hlength, -, hcounts⟩ := rounds_leastServed hload requests h
    (List.ne_nil_of_mem hmem) (by rw [hsum, card_candidateIds, Nat.zero_add]; exact hlimit)
  have hshare := (hserved.even fun a ha b hb => by rw [hzero a ha]; exact Nat.zero_le _).share hid
  rw [hserved.sum_count, hsum, Nat.zero_add, card_candidateIds, hlength, hcleared candidate hmem,
    Nat.zero_add] at hshare
  refine ⟨hshare, ?_⟩
  rw [hcounts, hcleared candidate hmem, Nat.zero_add]

/-! ## Counters at their top -/

theorem rounds_append (lane : InFlightLane) (requests later : List SelectionRequest)
    (s : PoolScheduler) :
    (s.rounds lane (requests ++ later)).2 =
      (s.rounds lane requests).2 ++ ((s.rounds lane requests).1.rounds lane later).2 := by
  induction requests generalizing s with
  | nil => rfl
  | cons request rest ih =>
    have hstep : ∀ tail, (s.rounds lane (request :: tail)).2 =
        (s.round request lane).2.toList ++ ((s.round request lane).1.rounds lane tail).2 :=
      fun _ => rfl
    have hstate : (s.rounds lane (request :: rest)).1 =
        ((s.round request lane).1.rounds lane rest).1 := rfl
    rw [List.cons_append, hstep, hstep, ih, hstate, List.append_assoc]

theorem AfterRound.candidates (h : AfterRound s s' lane request id) : s'.candidates = s.candidates := by
  obtain ⟨response, prompt, halfOpen, rfl, -⟩ := h
  rfl

theorem Level.rounds (hload : load < 2 ^ 32 - 1) (requests : List SelectionRequest)
    {later : List SelectionRequest} (h : s.Level lane load (requests ++ later))
    (hnonempty : s.candidates.values ≠ []) :
    (s.rounds lane requests).1.Level lane load later := by
  induction requests generalizing s with
  | nil => exact h
  | cons request rest ih =>
    obtain ⟨candidate, -, -, -, hafter, hlevel⟩ := h.round hload hnonempty
    exact ih hlevel (by rw [hafter.candidates]; exact hnonempty)

/-- Once all counters are at their top, every round goes to the account with the smallest id. -/
theorem rounds_saturated (hload : load < 2 ^ 32 - 1) (requests : List SelectionRequest)
    (h : s.Level lane load requests)
    (htop : ∀ candidate ∈ s.candidates.values, s.dispatchCount candidate.id lane = 2 ^ 64 - 1)
    {first : RuntimeCandidate} (hfirst : first ∈ s.candidates.values)
    (hsmallest : ∀ candidate ∈ s.candidates.values, compare first.id candidate.id ≠ .gt) :
    (s.rounds lane requests).2 = List.replicate requests.length first.id := by
  induction requests generalizing s with
  | nil => rfl
  | cons request rest ih =>
    obtain ⟨candidate, hmem, hbase, hdispatched, hafter, hlevel⟩ :=
      h.round hload (List.ne_nil_of_mem hfirst)
    have hsame : candidate.id = first.id := by
      have hnot := (h.baseline hbase hfirst).2 (by rw [htop candidate hmem, htop first hfirst])
      have hswap : compare candidate.id first.id = (compare first.id candidate.id).swap :=
        OrientedCmp.eq_swap
      cases hcompare : compare first.id candidate.id with
      | lt =>
        rw [hswap, hcompare] at hnot
        exact absurd rfl hnot
      | eq => exact (Std.compare_eq_iff_eq.mp hcompare).symm
      | gt => exact absurd hcompare (hsmallest candidate hmem)
    have hvalues : (s.round request lane).1.candidates.values = s.candidates.values := by
      rw [hafter.candidates]
    have hpicks := ih hlevel
      (fun c hc => by
        rw [hafter.dispatchCount, htop candidate hmem]
        split
        · rfl
        · exact htop c (hvalues ▸ hc))
      (by rw [hvalues]; exact hfirst) (by rw [hvalues]; exact hsmallest)
    have happend : (s.rounds lane (request :: rest)).2 =
        (s.round request lane).2.toList ++ ((s.round request lane).1.rounds lane rest).2 := rfl
    rw [happend, hdispatched, hpicks, hsame]
    rfl

/-! ## Two accounts with one quota -/

def levelPool : PoolScheduler :=
  (PoolScheduler.new.upsert (quotaAccount "a" 5000)).upsert (quotaAccount "b" 5000)

def sampleRequest : SelectionRequest where
  model := "m"
  allowedProtocols := [.responses]
  nowMs := 0

theorem level_levelPool (count : Nat) :
    levelPool.Level .text 0 (List.replicate count sampleRequest) where
  strategy := rfl
  account := by decide +kernel
  quota := by decide +kernel
  inFlight := by decide +kernel
  eligible := by
    intro request hrequest
    rw [List.eq_of_mem_replicate hrequest]
    decide +kernel
  unbound := by
    intro request hrequest
    rw [List.eq_of_mem_replicate hrequest]
    decide +kernel

theorem rounds_share_sample :
    (levelPool.rounds .text (List.replicate 3 sampleRequest)).2.count "a" = 1 ∨
      (levelPool.rounds .text (List.replicate 3 sampleRequest)).2.count "a" = 2 := by
  have hmem : ∃ candidate ∈ levelPool.candidates.values, candidate.id = "a" := by
    decide +kernel
  obtain ⟨candidate, hmem, hid⟩ := hmem
  have hshare := (rounds_share (level_levelPool 3) (by decide) (by decide +kernel)
    (by decide +kernel) candidate hmem).1
  have hlength : levelPool.candidates.values.length = 2 := by decide +kernel
  rw [hid, hlength] at hshare
  exact hshare

/-- What separates accounts by their own fields at most: one quota, nobody dispatched yet, everybody
selectable, nothing bound. -/
structure Alike (s : PoolScheduler) (lane : InFlightLane) (requests : List SelectionRequest) :
    Prop where
  strategy : s.routingStrategy = .adaptive
  account : ∀ candidate ∈ s.candidates.values, candidate.kind = .oauthAccount
  quota : ∀ left ∈ s.candidates.values, ∀ right ∈ s.candidates.values, left.quota = right.quota
  cleared : ∀ candidate ∈ s.candidates.values, s.dispatchCount candidate.id lane = 0
  eligible : ∀ request ∈ requests, ∀ candidate ∈ s.candidates.values,
    s.selectable request lane candidate = true
  unbound : ∀ request ∈ requests, s.boundOwner request = none ∧ s.promptBinding request = none

/-- A request of `a` is in flight when a change of the strategy clears the counters. -/
def busyPool : PoolScheduler :=
  ((levelPool.reserveForLane "a" "m" 0 .text).1.setRoutingStrategy .quotaHighest).setRoutingStrategy
    .adaptive

def protectedPool : PoolScheduler := (levelPool.setProtectedCandidate (some "a") 1000).1

theorem alike_busyPool : busyPool.Alike .text [sampleRequest, sampleRequest] :=
  ⟨rfl, by decide +kernel, by decide +kernel, by decide +kernel, by decide +kernel,
    by decide +kernel⟩

theorem alike_protectedPool : protectedPool.Alike .text [sampleRequest, sampleRequest] :=
  ⟨rfl, by decide +kernel, by decide +kernel, by decide +kernel, by decide +kernel,
    by decide +kernel⟩

/-- As many requests as the counters can count, and two more. -/
def manyRequests : List SelectionRequest :=
  List.replicate (2 * (2 ^ 64 - 1)) sampleRequest ++ List.replicate 2 sampleRequest

theorem manyRequests_eq : manyRequests = List.replicate (2 ^ 65) sampleRequest :=
  List.replicate_append_replicate

theorem alike_levelPool (count : Nat) :
    levelPool.Alike .text (List.replicate count sampleRequest) :=
  ⟨rfl, by decide +kernel, by decide +kernel, by decide +kernel, (level_levelPool count).eligible,
    (level_levelPool count).unbound⟩

/-- With both counters at their top `a` gets the two further rounds. -/
theorem count_manyRequests : (levelPool.rounds .text manyRequests).2.count "b" = 2 ^ 64 - 1 := by
  have hids : ∀ candidate ∈ levelPool.candidates.values, candidate.id = "a" ∨ candidate.id = "b" := by
    decide +kernel
  obtain ⟨a, ha, hida⟩ : ∃ candidate ∈ levelPool.candidates.values, candidate.id = "a" := by
    decide +kernel
  obtain ⟨b, hb, hidb⟩ : ∃ candidate ∈ levelPool.candidates.values, candidate.id = "b" := by
    decide +kernel
  have hlength : levelPool.candidates.values.length = 2 := by decide +kernel
  have hlevel : levelPool.Level .text 0 manyRequests := by
    rw [manyRequests_eq]
    exact level_levelPool _
  unfold manyRequests at hlevel ⊢
  generalize hcounted : 2 * (2 ^ 64 - 1) = counted at *
  have hshares := rounds_share (level_levelPool counted) (by decide) (by decide +kernel)
    (by rw [List.length_replicate, hlength, hcounted])
  -- All counters are at their top after the counted rounds.
  have htop : ∀ candidate ∈ levelPool.candidates.values,
      (levelPool.rounds .text (List.replicate counted sampleRequest)).2.count candidate.id =
        2 ^ 64 - 1 := by
    intro candidate hmem
    have hshare := (hshares candidate hmem).1
    rw [List.length_replicate, hlength] at hshare
    omega
  have hcandidates : (levelPool.rounds .text (List.replicate counted sampleRequest)).1.candidates =
      levelPool.candidates := by
    have hzero : ∑ id ∈ levelPool.candidateIds, levelPool.dispatchCount id .text = 0 := by
      decide +kernel
    have hcard : levelPool.candidateIds.card = 2 := by
      rw [card_candidateIds, hlength]
    exact (rounds_leastServed (by decide) _ (level_levelPool counted) (List.ne_nil_of_mem ha)
      (by rw [hzero, hcard, List.length_replicate, Nat.zero_add, hcounted])).2.2.1
  have hfirst : ∀ candidate ∈ levelPool.candidates.values, compare a.id candidate.id ≠ .gt := by
    intro candidate hmem
    rw [hida]
    rcases hids candidate hmem with h | h
    · rw [h]
      decide +kernel
    · rw [h]
      decide +kernel
  have hrest := rounds_saturated (by decide) (List.replicate 2 sampleRequest)
    (Level.rounds (by decide) _ hlevel (List.ne_nil_of_mem ha))
    (fun candidate hmem => by
      rw [hcandidates] at hmem
      rw [(hshares candidate hmem).2, htop candidate hmem])
    (by rw [hcandidates]; exact ha) (by rw [hcandidates]; exact hfirst)
  have hb' := htop b hb
  rw [hidb] at hb'
  rw [rounds_append, hrest, List.count_append, hb', hida]
  rfl

/-- Accounts that are alike do not get equal shares when one has a request in flight, when one is
protected, or when the counters have reached their top: here `b` gets two of two rounds, two of two,
and `2 ^ 64 - 1` of `2 ^ 65`. -/
theorem rotation_is_compared_last :
    (busyPool.Alike .text [sampleRequest, sampleRequest] ∧
      (busyPool.rounds .text [sampleRequest, sampleRequest]).2 = ["b", "b"]) ∧
    (protectedPool.Alike .text [sampleRequest, sampleRequest] ∧
      (protectedPool.rounds .text [sampleRequest, sampleRequest]).2 = ["b", "b"]) ∧
    levelPool.Alike .text (List.replicate (2 ^ 65) sampleRequest) ∧
      (levelPool.rounds .text (List.replicate (2 ^ 65) sampleRequest)).2.count "b" = 2 ^ 64 - 1 :=
  ⟨⟨alike_busyPool, by decide +kernel⟩, ⟨alike_protectedPool, by decide +kernel⟩,
    alike_levelPool _, manyRequests_eq ▸ count_manyRequests⟩

end PoolScheduler

end Zenith.Scheduler
