import Zenith.Lib.Tables
import Zenith.Lib.Text

/-!
# Scheduler activity

`scheduler/activity.rs` keeps, per lane, how many requests of a candidate are in flight, how many
it was ever dispatched, and how its in-flight requests divide over models. The counters are
redundant: `activeRequestCount` adds up the per-model counters of both lanes, while
`inFlightCount` reads a counter of its own.

Spec lemmas:
* `inFlightCount_reserve`, `requestCount_reserve`, `inFlightCount_release`,
  `requestCount_release`: what one reservation or release does to every counter;
* `activeRequestCount_eq`, `mem_activeModelsFor`: the two read-outs in terms of the per-model
  counters;
* `Mentions`: which candidates an activity knows about, and that only a reservation adds one.
-/

namespace Zenith.Scheduler

open Std Zenith.Text Zenith.Tables

inductive InFlightLane
  | text
  | image
deriving DecidableEq, Repr, Ord

instance : TransOrd InFlightLane where
  eq_swap := by intro a b; cases a <;> cases b <;> rfl
  isLE_trans := by intro a b c; cases a <;> cases b <;> cases c <;> decide

instance : LawfulEqOrd InFlightLane where
  compare_self := by intro a; cases a <;> rfl
  eq_of_compare := by intro a b; cases a <;> cases b <;> decide

structure SchedulerActivity where
  textInFlight : Table String Nat := ∅
  imageInFlight : Table String Nat := ∅
  activeModels : PairTable String InFlightLane (Table String Nat) := ∅
  textDispatches : Table String Nat := ∅
  imageDispatches : Table String Nat := ∅

namespace SchedulerActivity

/-! ## Operations -/

def inFlightMap (a : SchedulerActivity) : InFlightLane → Table String Nat
  | .text => a.textInFlight
  | .image => a.imageInFlight

/-- `in_flight_map_mut`. -/
def setInFlightMap (a : SchedulerActivity) (m : Table String Nat) : InFlightLane → SchedulerActivity
  | .text => { a with textInFlight := m }
  | .image => { a with imageInFlight := m }

def dispatchMap (a : SchedulerActivity) : InFlightLane → Table String Nat
  | .text => a.textDispatches
  | .image => a.imageDispatches

/-- `dispatch_map_mut`. -/
def setDispatchMap (a : SchedulerActivity) (m : Table String Nat) : InFlightLane → SchedulerActivity
  | .text => { a with textDispatches := m }
  | .image => { a with imageDispatches := m }

def clearDispatches (a : SchedulerActivity) : SchedulerActivity :=
  { a with textDispatches := ∅, imageDispatches := ∅ }

def removeCandidate (a : SchedulerActivity) (candidateId : String) : SchedulerActivity where
  textInFlight := a.textInFlight.erase candidateId
  imageInFlight := a.imageInFlight.erase candidateId
  activeModels := a.activeModels.filter fun key _ => decide (key.1 ≠ candidateId)
  textDispatches := a.textDispatches.erase candidateId
  imageDispatches := a.imageDispatches.erase candidateId

def reserve (a : SchedulerActivity) (candidateId model : String) (lane : InFlightLane) :
    SchedulerActivity :=
  let a := a.setInFlightMap (bump 32 (a.inFlightMap lane) candidateId 1) lane
  let a := a.setDispatchMap (bump 64 (a.dispatchMap lane) candidateId 1) lane
  { a with
    activeModels := a.activeModels.alter (candidateId, lane) fun models =>
      some (bump 32 (models.getD ∅) (asciiLower model) 1) }

/-- Files the per-model counters of one lane; an emptied table is dropped. -/
def setModelsAt (a : SchedulerActivity) (candidateId : String) (lane : InFlightLane)
    (models : Table String Nat) : SchedulerActivity :=
  { a with
    activeModels :=
      if models.isEmpty then a.activeModels.erase (candidateId, lane)
      else a.activeModels.insert (candidateId, lane) models }

/-- Takes one request off the counter of `model`. Without a model the first counter of the lane is
used; a model that is not counted changes nothing. -/
def releaseActiveModel (a : SchedulerActivity) (candidateId : String) (model : Option String)
    (lane : InFlightLane) : SchedulerActivity :=
  let modelKey := (model.map asciiLower).or
    (a.activeModels[(candidateId, lane)]?.bind fun models => models.minKey?)
  match modelKey, a.activeModels[(candidateId, lane)]? with
  | some modelKey, some models =>
    if models.contains modelKey then a.setModelsAt candidateId lane (unbump models modelKey) else a
  | _, _ => a

def release (a : SchedulerActivity) (candidateId : String) (model : Option String)
    (lane : InFlightLane) : SchedulerActivity × Bool :=
  if (a.inFlightMap lane).contains candidateId then
    ((a.setInFlightMap (unbump (a.inFlightMap lane) candidateId) lane).releaseActiveModel
      candidateId model lane, true)
  else (a, false)

def inFlightCount (a : SchedulerActivity) (candidateId : String) (lane : InFlightLane) : Nat :=
  counter (a.inFlightMap lane) candidateId

def activeRequestCount (a : SchedulerActivity) (candidateId : String) : Nat :=
  ((row a.activeModels candidateId).flatMap fun e => valuesOf e.2).foldl (satAdd 32) 0

def activeModelsFor (a : SchedulerActivity) (candidateId : String) : List (String × Nat) :=
  let counts : Table String Nat :=
    tally 32 ((row a.activeModels candidateId).flatMap fun e => e.2.toList) ∅
  counts.toList.filter fun e => decide (e.1 ≠ "") && decide (0 < e.2)

def dispatchCount (a : SchedulerActivity) (candidateId : String) (lane : InFlightLane) : Nat :=
  counter (a.dispatchMap lane) candidateId

/-! ## Per-model counters -/

/-- The per-model counters of one lane of a candidate. -/
def modelsAt (a : SchedulerActivity) (candidateId : String) (lane : InFlightLane) :
    Table String Nat :=
  a.activeModels[(candidateId, lane)]?.getD ∅

/-- How many requests of a candidate one lane counts under a lower-cased model. -/
def requestCount (a : SchedulerActivity) (candidateId : String) (lane : InFlightLane)
    (model : String) : Nat :=
  counter (a.modelsAt candidateId lane) model

@[simp] theorem inFlightMap_setInFlightMap (a : SchedulerActivity) (m : Table String Nat)
    (lane lane' : InFlightLane) :
    (a.setInFlightMap m lane).inFlightMap lane' = if lane = lane' then m else a.inFlightMap lane' := by
  cases lane <;> cases lane' <;> rfl

@[simp] theorem inFlightMap_setDispatchMap (a : SchedulerActivity) (m : Table String Nat)
    (lane lane' : InFlightLane) :
    (a.setDispatchMap m lane).inFlightMap lane' = a.inFlightMap lane' := by
  cases lane <;> cases lane' <;> rfl

@[simp] theorem activeModels_setInFlightMap (a : SchedulerActivity) (m : Table String Nat)
    (lane : InFlightLane) : (a.setInFlightMap m lane).activeModels = a.activeModels := by
  cases lane <;> rfl

@[simp] theorem activeModels_setDispatchMap (a : SchedulerActivity) (m : Table String Nat)
    (lane : InFlightLane) : (a.setDispatchMap m lane).activeModels = a.activeModels := by
  cases lane <;> rfl

@[simp] theorem inFlightMap_clearDispatches (a : SchedulerActivity) (lane : InFlightLane) :
    a.clearDispatches.inFlightMap lane = a.inFlightMap lane := by
  cases lane <;> rfl

@[simp] theorem inFlightCount_clearDispatches (a : SchedulerActivity) (id : String)
    (lane : InFlightLane) : a.clearDispatches.inFlightCount id lane = a.inFlightCount id lane := by
  simp [inFlightCount]

@[simp] theorem requestCount_clearDispatches (a : SchedulerActivity) (id : String)
    (lane : InFlightLane) (model : String) :
    a.clearDispatches.requestCount id lane model = a.requestCount id lane model := rfl

theorem inFlightCount_reserve (a : SchedulerActivity) (id id' model : String)
    (lane lane' : InFlightLane) :
    (a.reserve id model lane).inFlightCount id' lane' =
      if id = id' ∧ lane = lane' then satAdd 32 (a.inFlightCount id lane) 1
      else a.inFlightCount id' lane' := by
  have hmap : (a.reserve id model lane).inFlightMap lane' =
      if lane = lane' then bump 32 (a.inFlightMap lane) id 1 else a.inFlightMap lane' := by
    simp only [reserve]
    cases lane <;> cases lane' <;> rfl
  unfold inFlightCount
  rw [hmap]
  by_cases hl : lane = lane'
  · subst hl
    simp [counter_bump]
  · simp [hl]

theorem modelsAt_reserve (a : SchedulerActivity) (id id' model : String)
    (lane lane' : InFlightLane) :
    (a.reserve id model lane).modelsAt id' lane' =
      if id = id' ∧ lane = lane' then bump 32 (a.modelsAt id lane) (asciiLower model) 1
      else a.modelsAt id' lane' := by
  simp only [modelsAt, reserve, activeModels_setDispatchMap, activeModels_setInFlightMap,
    ExtTreeMap.getElem?_alter, LawfulEqCmp.compare_eq_iff_eq, Prod.mk.injEq]
  split <;> rfl

theorem requestCount_reserve (a : SchedulerActivity) (id id' model model' : String)
    (lane lane' : InFlightLane) :
    (a.reserve id model lane).requestCount id' lane' model' =
      if id = id' ∧ lane = lane' ∧ asciiLower model = model' then
        satAdd 32 (a.requestCount id lane (asciiLower model)) 1
      else a.requestCount id' lane' model' := by
  unfold requestCount
  rw [modelsAt_reserve]
  by_cases h : id = id' ∧ lane = lane'
  · obtain ⟨rfl, rfl⟩ := h
    simp [counter_bump]
  · rw [if_neg h, if_neg]
    exact fun h' => h ⟨h'.1, h'.2.1⟩

/-! ## Release -/

theorem modelsAt_setModelsAt (a : SchedulerActivity) (id id' : String) (lane lane' : InFlightLane)
    (models : Table String Nat) :
    (a.setModelsAt id lane models).modelsAt id' lane' =
      if id = id' ∧ lane = lane' then models else a.modelsAt id' lane' := by
  unfold setModelsAt modelsAt
  by_cases hk : id = id' ∧ lane = lane'
  · obtain ⟨rfl, rfl⟩ := hk
    split
    · next he => simp [ExtTreeMap.isEmpty_iff.mp he]
    · simp
  · rw [if_neg hk]
    split <;> simp [ExtTreeMap.getElem?_erase, ExtTreeMap.getElem?_insert, hk]

theorem requestCount_releaseActiveModel (a : SchedulerActivity) (id id' model model' : String)
    (lane lane' : InFlightLane) :
    (a.releaseActiveModel id (some model) lane).requestCount id' lane' model' =
      if id = id' ∧ lane = lane' ∧ asciiLower model = model' then
        a.requestCount id lane (asciiLower model) - 1
      else a.requestCount id' lane' model' := by
  -- Where the lane or the model is not counted, the counter reads zero and stays so.
  have hzero (h : a.requestCount id lane (asciiLower model) = 0) :
      a.requestCount id' lane' model' =
        if id = id' ∧ lane = lane' ∧ asciiLower model = model' then
          a.requestCount id lane (asciiLower model) - 1
        else a.requestCount id' lane' model' := by
    split
    · next hk =>
      obtain ⟨rfl, rfl, rfl⟩ := hk
      omega
    · rfl
  unfold releaseActiveModel
  simp only [Option.map_some, Option.some_or]
  cases hm : a.activeModels[(id, lane)]? with
  | none => exact hzero (by simp [requestCount, modelsAt, hm, counter])
  | some models =>
    have hat : a.modelsAt id lane = models := by simp [modelsAt, hm]
    simp only
    split
    · unfold requestCount
      rw [modelsAt_setModelsAt, hat]
      by_cases hk : id = id' ∧ lane = lane'
      · obtain ⟨rfl, rfl⟩ := hk
        rw [if_pos ⟨rfl, rfl⟩, counter_unbump, hat]
        simp only [true_and]
      · rw [if_neg hk, if_neg fun h => hk ⟨h.1, h.2.1⟩]
    · next hc =>
      refine hzero ?_
      have : models[asciiLower model]? = none := by
        rw [ExtTreeMap.contains_eq_isSome_getElem?, Option.not_isSome_iff_eq_none] at hc
        exact hc
      simp [requestCount, hat, counter, this]

@[simp] theorem inFlightMap_releaseActiveModel (a : SchedulerActivity) (id : String)
    (model : Option String) (lane lane' : InFlightLane) :
    (a.releaseActiveModel id model lane).inFlightMap lane' = a.inFlightMap lane' := by
  unfold releaseActiveModel
  simp only
  split
  · split
    · cases lane' <;> rfl
    · rfl
  · rfl

variable {a : SchedulerActivity} {id : String} {lane : InFlightLane}

/-- A request that is counted can be released. -/
theorem release_of_pos (model : Option String) (h : 0 < a.inFlightCount id lane) :
    a.release id model lane =
      ((a.setInFlightMap (unbump (a.inFlightMap lane) id) lane).releaseActiveModel id model lane,
        true) := by
  unfold release
  rw [if_pos]
  rw [ExtTreeMap.contains_eq_isSome_getElem?]
  unfold inFlightCount counter at h
  cases hc : (a.inFlightMap lane)[id]? with
  | none => simp [hc] at h
  | some n => rfl

theorem inFlightCount_release (model : Option String) (h : 0 < a.inFlightCount id lane) (id' : String)
    (lane' : InFlightLane) :
    (a.release id model lane).1.inFlightCount id' lane' =
      if id = id' ∧ lane = lane' then a.inFlightCount id lane - 1
      else a.inFlightCount id' lane' := by
  rw [release_of_pos model h]
  simp only [inFlightCount, inFlightMap_releaseActiveModel, inFlightMap_setInFlightMap]
  by_cases hl : lane = lane'
  · subst hl
    simp [counter_unbump]
  · simp [hl]

theorem requestCount_release (model : String) (h : 0 < a.inFlightCount id lane) (id' : String) (lane' : InFlightLane)
    (model' : String) :
    (a.release id (some model) lane).1.requestCount id' lane' model' =
      if id = id' ∧ lane = lane' ∧ asciiLower model = model' then
        a.requestCount id lane (asciiLower model) - 1
      else a.requestCount id' lane' model' := by
  have hset (m : Table String Nat) (i : String) (l : InFlightLane) (k : String) :
      (a.setInFlightMap m lane).requestCount i l k = a.requestCount i l k := by
    simp [requestCount, modelsAt]
  rw [release_of_pos _ h]
  simp only [requestCount_releaseActiveModel, hset]

/-! ## Removal -/

@[simp] theorem inFlightCount_removeCandidate (a : SchedulerActivity) (id id' : String)
    (lane : InFlightLane) :
    (a.removeCandidate id).inFlightCount id' lane =
      if id = id' then 0 else a.inFlightCount id' lane := by
  cases lane <;>
    (by_cases h : id = id' <;>
      simp [inFlightCount, inFlightMap, removeCandidate, counter, ExtTreeMap.getElem?_erase, h])

@[simp] theorem requestCount_removeCandidate (a : SchedulerActivity) (id id' : String)
    (lane : InFlightLane) (model : String) :
    (a.removeCandidate id).requestCount id' lane model =
      if id = id' then 0 else a.requestCount id' lane model := by
  simp only [requestCount, modelsAt, removeCandidate, ExtTreeMap.getElem?_filter']
  by_cases h : id = id'
  · subst h
    cases a.activeModels[(id, lane)]? <;> simp [counter]
  · rw [if_neg h]
    cases a.activeModels[(id', lane)]? <;> simp [Ne.symm h, Option.filter]

/-! ## Read-outs -/

theorem row_lanes (a : SchedulerActivity) (id : String) :
    (row a.activeModels id).Perm
      ([InFlightLane.text, InFlightLane.image].filterMap fun lane =>
        a.activeModels[(id, lane)]?.map fun models => ((id, lane), models)) :=
  row_perm a.activeModels id _ (by decide) (by intro b; cases b <;> decide)

/-- `activeRequestCount` is the sum of all per-model counters of the candidate. -/
theorem activeRequestCount_eq (a : SchedulerActivity) (id : String) :
    a.activeRequestCount id =
      min ((valuesOf (a.modelsAt id .text)).sum + (valuesOf (a.modelsAt id .image)).sum)
        (2 ^ 32 - 1) := by
  unfold activeRequestCount
  rw [foldl_satAdd _ _ _ (by omega), Nat.zero_add]
  rw [((row_lanes a id).flatMap_right _).sum_eq]
  have hempty : valuesOf (∅ : Table String Nat) = [] := by simp [valuesOf]
  cases ht : a.activeModels[(id, InFlightLane.text)]? <;>
    cases hi : a.activeModels[(id, InFlightLane.image)]? <;>
      simp [modelsAt, ht, hi, hempty]

theorem sum_filter_toList (t : Table String Nat) (model : String) :
    ((t.toList.filter fun e => e.1 = model).map Prod.snd).sum = counter t model := by
  have hperm : (t.toList.filter fun e => e.1 = model).Perm
      (t[model]?.map fun n => (model, n)).toList := by
    refine (List.perm_ext_iff_of_nodup ((nodup_toList t).filter _) ?_).mpr ?_
    · cases t[model]? <;> simp
    · rintro ⟨k, n⟩
      simp only [List.mem_filter, ExtTreeMap.mem_toList_iff_getElem?_eq_some, decide_eq_true_eq,
        Option.mem_toList, Option.map_eq_some_iff, Prod.mk.injEq]
      constructor
      · rintro ⟨h, rfl⟩
        exact ⟨n, h, rfl, rfl⟩
      · rintro ⟨_, h, rfl, rfl⟩
        exact ⟨h, rfl⟩
  rw [(hperm.map _).sum_eq]
  unfold counter
  cases t[model]? <;> simp

/-- The read-out of active models lists each non-empty model with the requests it has over both
lanes. -/
theorem mem_activeModelsFor (hlt : ∀ model, a.requestCount id .text model + a.requestCount id .image model < 2 ^ 32)
    (model : String) (n : Nat) :
    (model, n) ∈ a.activeModelsFor id ↔
      model ≠ "" ∧ n = a.requestCount id .text model + a.requestCount id .image model ∧ 0 < n := by
  have hsum : ∀ m, ((((row a.activeModels id).flatMap fun e => e.2.toList).filter
      fun e => e.1 = m).map Prod.snd).sum =
        a.requestCount id .text m + a.requestCount id .image m := by
    intro m
    rw [((((row_lanes a id).flatMap_right _).filter _).map _).sum_eq]
    have hempty : counter (∅ : Table String Nat) m = 0 := by simp [counter]
    cases ht : a.activeModels[(id, InFlightLane.text)]? <;>
      cases hi : a.activeModels[(id, InFlightLane.image)]? <;>
        simp [modelsAt, requestCount, ht, hi, hempty, List.filter_append, sum_filter_toList]
  have hcount : ∀ m, counter (tally 32 ((row a.activeModels id).flatMap fun e => e.2.toList)
      (∅ : Table String Nat)) m = a.requestCount id .text m + a.requestCount id .image m := by
    intro m
    have hempty : counter (∅ : Table String Nat) m = 0 := by simp [counter]
    rw [counter_tally, hsum, hempty, Nat.zero_add]
    rw [hsum, hempty, Nat.zero_add]
    exact hlt m
  unfold activeModelsFor
  simp only [List.mem_filter, ExtTreeMap.mem_toList_iff_getElem?_eq_some, Bool.and_eq_true,
    decide_eq_true_eq]
  have hm := hcount model
  unfold counter at hm
  constructor
  · rintro ⟨h, hne, hpos⟩
    rw [h, Option.getD_some] at hm
    exact ⟨hne, hm, hpos⟩
  · rintro ⟨hne, hn, hpos⟩
    refine ⟨?_, hne, hpos⟩
    rw [← hn] at hm
    cases hv : (tally 32 ((row a.activeModels id).flatMap fun e => e.2.toList)
      (∅ : Table String Nat))[model]? with
    | none => rw [hv] at hm; simp at hm; omega
    | some v => rw [hv] at hm; simp at hm; rw [hm]

/-! ## The candidates an activity mentions -/

/-- Some table of the activity has an entry for the candidate. -/
def Mentions (a : SchedulerActivity) (id : String) : Prop :=
  (∃ lane, (a.inFlightMap lane)[id]?.isSome) ∨
    (∃ lane : InFlightLane, a.activeModels[(id, lane)]?.isSome) ∨
    ∃ lane, (a.dispatchMap lane)[id]?.isSome

theorem not_mentions_empty (id : String) : ¬ ({} : SchedulerActivity).Mentions id := by
  rintro (⟨lane, h⟩ | ⟨lane, h⟩ | ⟨lane, h⟩)
  · cases lane <;> simp [inFlightMap] at h
  · simp at h
  · cases lane <;> simp [dispatchMap] at h

theorem Mentions.of_clearDispatches (h : a.clearDispatches.Mentions id) : a.Mentions id := by
  rcases h with ⟨lane, h⟩ | ⟨lane, h⟩ | ⟨lane, h⟩
  · exact .inl ⟨lane, by simpa using h⟩
  · exact .inr (.inl ⟨lane, h⟩)
  · cases lane <;> simp [dispatchMap, clearDispatches] at h

variable {id id' : String}

theorem Mentions.of_removeCandidate (h : (a.removeCandidate id).Mentions id') : id ≠ id' ∧ a.Mentions id' := by
  by_cases hid : id = id'
  · subst hid
    exfalso
    rcases h with ⟨lane, h⟩ | ⟨lane, h⟩ | ⟨lane, h⟩
    · cases lane <;> simp [inFlightMap, removeCandidate] at h
    · simp [removeCandidate] at h
    · cases lane <;> simp [dispatchMap, removeCandidate] at h
  · refine ⟨hid, ?_⟩
    rcases h with ⟨lane, h⟩ | ⟨lane, h⟩ | ⟨lane, h⟩
    · refine .inl ⟨lane, ?_⟩
      cases lane <;>
        simpa [inFlightMap, removeCandidate, ExtTreeMap.getElem?_erase, hid] using h
    · refine .inr (.inl ⟨lane, ?_⟩)
      simp only [removeCandidate, ExtTreeMap.getElem?_filter', Option.isSome_filter] at h
      exact Option.isSome_of_any h
    · refine .inr (.inr ⟨lane, ?_⟩)
      cases lane <;>
        simpa [dispatchMap, removeCandidate, ExtTreeMap.getElem?_erase, hid] using h

/-- Only the reserved candidate can become mentioned by a reservation. -/
theorem Mentions.of_reserve {id model id' : String}
    (h : (a.reserve id model lane).Mentions id') : id = id' ∨ a.Mentions id' := by
  by_cases hid : id = id'
  · exact .inl hid
  · refine .inr ?_
    rcases h with ⟨lane', h⟩ | ⟨lane', h⟩ | ⟨lane', h⟩
    · refine .inl ⟨lane', ?_⟩
      cases lane <;> cases lane' <;>
        simpa [reserve, setInFlightMap, setDispatchMap, inFlightMap, getElem?_bump, hid] using h
    · refine .inr (.inl ⟨lane', ?_⟩)
      simpa [reserve, ExtTreeMap.getElem?_alter, hid] using h
    · refine .inr (.inr ⟨lane', ?_⟩)
      cases lane <;> cases lane' <;>
        simpa [reserve, setInFlightMap, setDispatchMap, dispatchMap, getElem?_bump, hid] using h

theorem Mentions.of_releaseActiveModel {model : Option String}
    (h : (a.releaseActiveModel id model lane).Mentions id') : a.Mentions id' := by
  unfold releaseActiveModel at h
  simp only at h
  split at h
  · next models _ hm =>
    split at h
    · rcases h with ⟨lane', h⟩ | ⟨lane', h⟩ | ⟨lane', h⟩
      · exact .inl ⟨lane', by cases lane' <;> exact h⟩
      · refine .inr (.inl ⟨lane', ?_⟩)
        by_cases hk : id = id' ∧ lane = lane'
        · rw [← hk.1, ← hk.2, hm]
          rfl
        · simp only [setModelsAt] at h
          split at h
          · simpa [ExtTreeMap.getElem?_erase, hk] using h
          · simpa [ExtTreeMap.getElem?_insert, hk] using h
      · exact .inr (.inr ⟨lane', by cases lane' <;> exact h⟩)
    · exact h
  · exact h

theorem Mentions.of_release {model : Option String}
    (h : (a.release id model lane).1.Mentions id') : a.Mentions id' := by
  unfold release at h
  split at h
  · rcases h.of_releaseActiveModel with ⟨lane', h⟩ | ⟨lane', h⟩ | ⟨lane', h⟩
    · refine .inl ⟨lane', ?_⟩
      rw [inFlightMap_setInFlightMap] at h
      split at h
      · next hl =>
        subst hl
        exact isSome_of_unbump h
      · exact h
    · exact .inr (.inl ⟨lane', by simpa using h⟩)
    · refine .inr (.inr ⟨lane', ?_⟩)
      cases lane <;> cases lane' <;> exact h
  · exact h

end SchedulerActivity

end Zenith.Scheduler
