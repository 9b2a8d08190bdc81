import Zenith.Runtime.Gateway

/-!
# Source policies in one update

`update_source_policies` reads every candidate of every named source before it writes one. A refused
update leaves the runtime as it was. An accepted one gives each candidate bound to a named source the
policy and recovery delay of that source's update and nothing else, and leaves the other candidates
alone, although it files candidates through `upsert`, which also takes back retirements and forgets
the reasons of ended cooldowns.
-/

namespace Zenith.Runtime

open Std Zenith.Tables Zenith.Scheduler

/-- A fold of writes ends with the one value they all write to a place, if one of them writes there,
and with what was there if none does. -/
theorem read_foldl {σ ι ν : Type} (write : σ → ι → σ) (read : σ → ν) (writes : ι → Prop)
    (value : ν) (items : List ι)
    (hother : ∀ s item, ¬ writes item → read (write s item) = read s)
    (hvalue : ∀ s, ∀ item ∈ items, writes item → read (write s item) = value) (s : σ) :
    ((∃ item ∈ items, writes item) → read (items.foldl write s) = value) ∧
      ((∀ item ∈ items, ¬ writes item) → read (items.foldl write s) = read s) := by
  induction items using List.reverseRecOn with
  | nil => exact ⟨fun ⟨_, hitem, _⟩ => (nomatch hitem), fun _ => rfl⟩
  | append_singleton items last ih =>
    have hrest := ih fun s item hitem => hvalue s item (List.mem_append_left _ hitem)
    rw [List.foldl_append, List.foldl_cons, List.foldl_nil]
    have hlast := hvalue (items.foldl write s) last (by simp)
    by_cases hwrites : writes last
    · refine ⟨fun _ => hlast hwrites, fun hnone => ?_⟩
      exact absurd hwrites (hnone last (by simp))
    · rw [hother _ _ hwrites]
      constructor
      · rintro ⟨item, hitem, hwritten⟩
        rcases List.mem_append.mp hitem with hitem | hitem
        · exact hrest.1 ⟨item, hitem, hwritten⟩
        · exact absurd (List.mem_singleton.mp hitem ▸ hwritten) hwrites
      · exact fun hnone => hrest.2 fun item hitem => hnone item (List.mem_append_left _ hitem)

/-- Every element of a successful traversal has its result among the results. -/
theorem exists_of_mapM {α β : Type} {f : α → Option β} {l : List α} {ys : List β}
    (h : l.mapM f = some ys) {x : α} (hx : x ∈ l) : ∃ y ∈ ys, f x = some y := by
  induction l generalizing ys with
  | nil => cases hx
  | cons a l ih =>
    simp only [List.mapM_cons, Option.bind_eq_bind, Option.bind_eq_some_iff, Option.pure_def,
      Option.some.injEq] at h
    obtain ⟨b, hb, rest, hrest, rfl⟩ := h
    rcases List.mem_cons.mp hx with rfl | hmem
    · exact ⟨b, List.mem_cons_self, hb⟩
    · obtain ⟨y, hy, hfy⟩ := ih hrest hmem
      exact ⟨y, List.mem_cons_of_mem b hy, hfy⟩

namespace RuntimeSourcePolicyUpdate

variable (update : RuntimeSourcePolicyUpdate)

/-- The candidate under the policy of the update. -/
def applied (candidate : RuntimeCandidate) : RuntimeCandidate :=
  applyCandidatePolicy candidate update.policy
    (Runtime.modelRules update.policy.allowedModels update.policy.excludedModels)

/-- What the update stages for a candidate. -/
def staged (candidate : RuntimeCandidate) : String × RuntimeCandidate × Nat :=
  (candidate.id, update.applied candidate, update.recoveryDelaySeconds)

end RuntimeSourcePolicyUpdate

namespace GatewayRuntime

variable {r : GatewayRuntime}

/-- The candidate is bound to the source of the update. -/
def BoundTo (r : GatewayRuntime) (update : RuntimeSourcePolicyUpdate) (candidateId : String) : Prop :=
  r.sourceCandidateBindings[candidateId]? = some update.sourceId

/-! ## Staging -/

variable {update : RuntimeSourcePolicyUpdate} {items : List (String × RuntimeCandidate × Nat)}

/-- Everything that is staged for a source is its policy on one of its candidates. -/
theorem of_mem_stageSource (h : r.stageSource update = some items)
    {item : String × RuntimeCandidate × Nat} (hitem : item ∈ items) :
    ∃ candidate, r.BoundTo update candidate.id ∧
      r.scheduler.candidates.get? candidate.id = some candidate ∧ item = update.staged candidate := by
  unfold stageSource at h
  dsimp only at h
  split at h
  · cases h
  · obtain ⟨⟨candidateId, sourceId⟩, hmem, hbound⟩ := mem_of_mapM h hitem
    obtain ⟨hlisted, hsource⟩ := List.mem_filter.mp hmem
    dsimp only at hbound
    cases hget : r.scheduler.candidates.get? candidateId with
    | none => simp [hget] at hbound
    | some candidate =>
      obtain rfl : candidate.id = candidateId := CandidateTable.get?_id hget
      rw [hget] at hbound
      dsimp only at hbound
      split at hbound
      · cases hbound
      · refine ⟨candidate, ?_, hget, (Option.some.inj hbound).symm⟩
        have hbinding := ExtTreeMap.mem_toList_iff_getElem?_eq_some.mp hlisted
        rw [BoundTo, hbinding]
        exact congrArg some (of_decide_eq_true hsource)

/-- Every candidate bound to a staged source is there, and its new policy is staged. -/
theorem mem_stageSource (h : r.stageSource update = some items)
    {candidateId : String} (hbound : r.BoundTo update candidateId) :
    ∃ candidate, r.scheduler.candidates.get? candidateId = some candidate ∧
      update.staged candidate ∈ items := by
  unfold stageSource at h
  dsimp only at h
  split at h
  · cases h
  · have hlisted : (candidateId, update.sourceId) ∈ r.sourceCandidateBindings.toList.filter
        fun item => item.2 = update.sourceId :=
      List.mem_filter.mpr ⟨ExtTreeMap.mem_toList_iff_getElem?_eq_some.mpr hbound, by simp⟩
    obtain ⟨item, hitem, hstaged⟩ := exists_of_mapM h hlisted
    cases hget : r.scheduler.candidates.get? candidateId with
    | none => simp [hget] at hstaged
    | some candidate =>
      obtain rfl : candidate.id = candidateId := CandidateTable.get?_id hget
      rw [hget] at hstaged
      dsimp only at hstaged
      split at hstaged
      · cases hstaged
      · obtain rfl := Option.some.inj hstaged
        exact ⟨candidate, rfl, hitem⟩

/-- What is staged for a list of updates, whose sources differ. -/
structure Staged (r : GatewayRuntime) (updates : List RuntimeSourcePolicyUpdate)
    (items : List (String × RuntimeCandidate × Nat)) : Prop where
  bounded : ∀ update ∈ updates, update.recoveryDelaySeconds ≤ 24 * 60 * 60
  distinct : (updates.map (·.sourceId)).Nodup
  from_update : ∀ item ∈ items, ∃ update ∈ updates, ∃ candidate,
    r.BoundTo update candidate.id ∧
      r.scheduler.candidates.get? candidate.id = some candidate ∧ item = update.staged candidate
  of_bound : ∀ update ∈ updates, ∀ candidateId, r.BoundTo update candidateId →
    ∃ candidate, r.scheduler.candidates.get? candidateId = some candidate ∧
      update.staged candidate ∈ items

variable {updates : List RuntimeSourcePolicyUpdate}

theorem staged_of_stageSources (h : r.stageSources updates = some items) :
    Staged r updates items := by
  unfold stageSources at h
  split at h
  · cases h
  · next hvalid =>
    split at h
    · cases h
    · next hdistinct =>
      obtain ⟨groups, hgroups, rfl⟩ := Option.map_eq_some_iff.mp h
      refine ⟨fun update hupdate => ?_, not_not.mp hdistinct, fun item hitem => ?_,
        fun update hupdate candidateId hbound => ?_⟩
      · by_contra hlong
        refine hvalid (List.any_eq_true.mpr ⟨update, hupdate, ?_⟩)
        rw [decide_eq_true (Nat.lt_of_not_le hlong), Bool.or_true]
      · obtain ⟨group, hgroup, hmem⟩ := List.mem_flatten.mp hitem
        obtain ⟨update, hupdate, hstaged⟩ := mem_of_mapM hgroups hgroup
        exact ⟨update, hupdate, of_mem_stageSource hstaged hmem⟩
      · obtain ⟨group, hgroup, hstaged⟩ := exists_of_mapM hgroups hupdate
        obtain ⟨candidate, hget, hmem⟩ := mem_stageSource hstaged hbound
        exact ⟨candidate, hget, List.mem_flatten.mpr ⟨group, hgroup, hmem⟩⟩

/-- A candidate is bound to one source, so all that is staged under its id is one and the same. -/
theorem Staged.unique (h : Staged r updates items)
    (hupdate : update ∈ updates) {candidate : RuntimeCandidate}
    (hbound : r.BoundTo update candidate.id)
    (hget : r.scheduler.candidates.get? candidate.id = some candidate)
    {item : String × RuntimeCandidate × Nat} (hitem : item ∈ items) (hid : item.1 = candidate.id) :
    item = update.staged candidate := by
  obtain ⟨update', hupdate', candidate', hbound', hget', rfl⟩ := h.from_update item hitem
  change candidate'.id = candidate.id at hid
  rw [hid] at hbound' hget'
  obtain rfl := Option.some.inj (hget'.symm.trans hget)
  have hsource : update'.sourceId = update.sourceId := Option.some.inj (hbound'.symm.trans hbound)
  rw [List.inj_on_of_nodup_map h.distinct hupdate' hupdate hsource]

/-! ## Writing -/

/-- The runtime with the candidates of the items filed one by one. -/
def fileAll (r : GatewayRuntime) (items : List (String × RuntimeCandidate × Nat)) : GatewayRuntime :=
  items.foldl (fun r item => r.call (.pool (.upsert item.2.1))) r

/-- What an update leaves alone: all but candidates, reasons of cooldowns, retirements and delays. -/
def fileFrame (r : GatewayRuntime) : GatewayRuntime :=
  { r with
    pool := { r.pool with scheduler :=
      { r.scheduler with
        candidates := .empty
        cooldownReasons := ∅
        retiredCandidates := ∅ } }
    sourceRecoveryDelaysMs := ∅ }

theorem fileFrame_fileAll (r : GatewayRuntime) (items : List (String × RuntimeCandidate × Nat)) :
    (r.fileAll items).fileFrame = r.fileFrame := by
  unfold fileAll
  induction items generalizing r with
  | nil => rfl
  | cons item items ih => exact ih (r.call (.pool (.upsert item.2.1)))

theorem get?_upsert (r : GatewayRuntime) (candidate : RuntimeCandidate) (candidateId : String) :
    (r.call (.pool (.upsert candidate))).scheduler.candidates.get? candidateId =
      if candidate.id = candidateId then some candidate else r.scheduler.candidates.get? candidateId :=
  CandidateTable.get?_insert _ candidate candidateId

theorem getElem?_setRecoveryDelay (delays : Table String Nat) (candidateId : String) (seconds : Nat)
    (other : String) :
    (setRecoveryDelay delays candidateId seconds)[other]? =
      if candidateId = other then
        if seconds = 0 then none else some (min (seconds * 1000) (2 ^ 64 - 1))
      else delays[other]? := by
  unfold setRecoveryDelay
  by_cases hzero : seconds = 0
  · rw [if_pos hzero, if_pos hzero, getElem?_erase_ite]
  · rw [if_neg hzero, if_neg hzero, getElem?_insert_ite]

/-- Filing staged candidates leaves at an id the candidate that is staged for it, if there is one. -/
theorem get?_fileAll (hkeyed : ∀ item ∈ items, item.2.1.id = item.1) (candidateId : String)
    (value : Option RuntimeCandidate)
    (hvalue : ∀ item ∈ items, item.1 = candidateId → some item.2.1 = value) :
    ((∃ item ∈ items, item.1 = candidateId) →
      (r.fileAll items).scheduler.candidates.get? candidateId = value) ∧
    ((∀ item ∈ items, item.1 ≠ candidateId) →
      (r.fileAll items).scheduler.candidates.get? candidateId =
        r.scheduler.candidates.get? candidateId) := by
  have hfold := read_foldl (fun (r : GatewayRuntime) item => r.call (.pool (.upsert item.2.1)))
    (fun r => r.scheduler.candidates.get? candidateId)
    (fun item : String × RuntimeCandidate × Nat => item.2.1.id = candidateId) value items
    (fun s item hother => by rw [get?_upsert, if_neg hother])
    (fun s item hitem hid => by
      rw [get?_upsert, if_pos hid]
      exact hvalue item hitem ((hkeyed item hitem).symm.trans hid)) r
  refine ⟨fun ⟨item, hitem, hid⟩ => hfold.1 ⟨item, hitem, (hkeyed item hitem).trans hid⟩,
    fun hnone => hfold.2 fun item hitem hid => hnone item hitem ((hkeyed item hitem).symm.trans hid)⟩

theorem getElem?_setRecoveryDelays (delays : Table String Nat) (candidateId : String) (value : Option Nat)
    (hvalue : ∀ item ∈ items, item.1 = candidateId →
      (if item.2.2 = 0 then none else some (min (item.2.2 * 1000) (2 ^ 64 - 1))) = value) :
    ((∃ item ∈ items, item.1 = candidateId) →
      (items.foldl (fun delays item => setRecoveryDelay delays item.1 item.2.2) delays)[candidateId]? =
        value) ∧
    ((∀ item ∈ items, item.1 ≠ candidateId) →
      (items.foldl (fun delays item => setRecoveryDelay delays item.1 item.2.2) delays)[candidateId]? =
        delays[candidateId]?) :=
  read_foldl (fun delays item => setRecoveryDelay delays item.1 item.2.2)
    (fun delays : Table String Nat => delays[candidateId]?)
    (fun item : String × RuntimeCandidate × Nat => item.1 = candidateId) value items
    (fun s item hother => by rw [getElem?_setRecoveryDelay, if_neg hother])
    (fun s item hitem hid => by
      rw [getElem?_setRecoveryDelay, if_pos hid]
      exact hvalue item hitem hid) delays

/-- Every staged candidate is staged under its own id. -/
theorem Staged.keyed (h : Staged r updates items) :
    ∀ item ∈ items, item.2.1.id = item.1 := by
  intro item hitem
  obtain ⟨update, _, candidate, _, _, rfl⟩ := h.from_update item hitem
  rfl

/-- A refused update leaves the runtime as it was. An accepted one gives every candidate bound to an
updated source the policy and delay of that update, and no other candidate, delay or part of the
runtime changes, the reasons of cooldowns and the retirements apart. -/
theorem updateSourcePolicies_atomic (r : GatewayRuntime) (updates : List RuntimeSourcePolicyUpdate) :
    ((r.updateSourcePolicies updates).2 = false → (r.updateSourcePolicies updates).1 = r) ∧
      ((r.updateSourcePolicies updates).2 = true →
        let after := (r.updateSourcePolicies updates).1
        (∀ update ∈ updates, ∀ candidateId,
          r.sourceCandidateBindings[candidateId]? = some update.sourceId →
          ∃ candidate, r.scheduler.candidates.get? candidateId = some candidate ∧
            after.scheduler.candidates.get? candidateId =
              some { candidate with
                enabled := update.policy.enabled
                draining := update.policy.draining
                priority := update.policy.priority
                weight := update.policy.weight
                modelRules := Runtime.modelRules update.policy.allowedModels
                  update.policy.excludedModels } ∧
            after.sourceRecoveryDelaysMs[candidateId]? =
              if update.recoveryDelaySeconds = 0 then none
              else some (update.recoveryDelaySeconds * 1000)) ∧
        (∀ candidateId,
          (∀ update ∈ updates, r.sourceCandidateBindings[candidateId]? ≠ some update.sourceId) →
          after.scheduler.candidates.get? candidateId = r.scheduler.candidates.get? candidateId ∧
            after.sourceRecoveryDelaysMs[candidateId]? = r.sourceRecoveryDelaysMs[candidateId]?) ∧
        after.fileFrame = r.fileFrame) := by
  unfold updateSourcePolicies
  cases hstaged : r.stageSources updates with
  | none => exact ⟨fun _ => rfl, nofun⟩
  | some items =>
    have hitems := staged_of_stageSources hstaged
    refine ⟨nofun, fun _ => ⟨fun update hupdate candidateId hbound => ?_, fun candidateId hfree => ?_, ?_⟩⟩
    · obtain ⟨candidate, hget, hmem⟩ := hitems.of_bound update hupdate candidateId hbound
      obtain rfl : candidate.id = candidateId := CandidateTable.get?_id hget
      have hunique : ∀ item ∈ items, item.1 = candidate.id → item = update.staged candidate :=
        fun item hitem hid => hitems.unique hupdate hbound hget hitem hid
      refine ⟨candidate, hget, ?_, ?_⟩
      · refine (get?_fileAll hitems.keyed candidate.id _ fun item hitem hid => ?_).1 ⟨_, hmem, rfl⟩
        rw [hunique item hitem hid]
        rfl
      · refine (getElem?_setRecoveryDelays r.sourceRecoveryDelaysMs candidate.id _
          fun item hitem hid => ?_).1 ⟨_, hmem, rfl⟩
        have hbounded := hitems.bounded update hupdate
        rw [hunique item hitem hid]
        show (if update.recoveryDelaySeconds = 0 then none
          else some (min (update.recoveryDelaySeconds * 1000) (2 ^ 64 - 1))) = _
        rw [Nat.min_eq_left (by omega)]
    · have hnone : ∀ item ∈ items, item.1 ≠ candidateId := by
        rintro item hitem rfl
        obtain ⟨update, hupdate, candidate, hbound, _, rfl⟩ := hitems.from_update item hitem
        exact hfree update hupdate hbound
      exact ⟨(get?_fileAll hitems.keyed candidateId none fun item hitem hid =>
          absurd hid (hnone item hitem)).2 hnone,
        (getElem?_setRecoveryDelays r.sourceRecoveryDelaysMs candidateId none fun item hitem hid =>
          absurd hid (hnone item hitem)).2 hnone⟩
    · exact fileFrame_fileAll r items

/-- Two protocol bindings of one source, and a candidate of another one. -/
def twoBindings : GatewayRuntime :=
  let candidates : List RuntimeCandidate :=
    [{ id := "a", kind := .apiSource, sourceId := "s", models := {"m"} },
      { id := "b", kind := .apiSource, sourceId := "s", models := {"m"} },
      { id := "c", kind := .apiSource, sourceId := "t", models := {"m"} }]
  { pool := { scheduler := candidates.foldl PoolScheduler.upsert .new }
    sourceCandidateBindings := ((∅ : Table String String).insert "a" "s").insert "b" "s" }

theorem updateSourcePolicies_atomic_sample :
    ∃ candidate, twoBindings.scheduler.candidates.get? "b" = some candidate ∧
      (twoBindings.updateSourcePolicies [⟨"s", { priority := 7 }, 30⟩]).1.scheduler.candidates.get? "b" =
        some { candidate with
          enabled := true
          draining := false
          priority := 7
          weight := 1
          modelRules := Runtime.modelRules [] [] } ∧
      (twoBindings.updateSourcePolicies [⟨"s", { priority := 7 }, 30⟩]).1.sourceRecoveryDelaysMs["b"]? =
        some 30000 :=
  ((updateSourcePolicies_atomic twoBindings [⟨"s", { priority := 7 }, 30⟩]).2 (by decide +kernel)).1
    ⟨"s", { priority := 7 }, 30⟩ (List.mem_singleton_self _) "b" (by decide +kernel)

end GatewayRuntime

end Zenith.Runtime
