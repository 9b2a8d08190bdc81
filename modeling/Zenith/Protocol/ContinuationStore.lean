import Mathlib
import Zenith.Lib.Eviction
import Zenith.Protocol.NativeReplay

/-!
# The continuation stores

`BoundedStateStore` of `protocol/adapter/store.rs`, which keeps the states of answered turns for a while:
no more than so many, of no more than so many bytes together. `standing` says what was last inserted
under each key and not evicted since. In any sequence of calls, with times that do not go back, the store
answers from it, and makes room as `Evicts` says (`storeSpec_of_calls`).

The count of the bytes saturates at the largest value of a machine word. A limit of that value is never
exceeded by it, so there the count is not the sum of the sizes (`count_saturates`).
-/

namespace Zenith.Protocol

open Std (ExtTreeMap)
open Zenith.Comparators Zenith.Eviction Zenith.Tables

structure StoredState (σ : Type) where
  state : σ
  candidateId : String
  observedAtMs : Nat
  sizeBytes : Nat

/-- The state is not too old. -/
def StoredState.isFresh {σ : Type} (entry : StoredState σ) (ttlMs nowMs : Nat) : Bool :=
  decide (nowMs - entry.observedAtMs ≤ ttlMs)

/-- The states by local key and response. `size` is a parameter of `insert`: the length of the state in
JSON, if it has any. -/
structure BoundedStateStore (σ : Type) where
  entries : PairTable String String (StoredState σ)
  maxEntries : Nat
  ttlMs : Nat
  maxEntryBytes : Nat
  maxTotalBytes : Nat
  totalBytes : Nat

def boundedStateStore (σ : Type) (maxEntries ttlMs maxEntryBytes maxTotalBytes : Nat) :
    BoundedStateStore σ where
  entries := ∅
  maxEntries
  ttlMs
  maxEntryBytes
  maxTotalBytes
  totalBytes := 0

theorem transCmp_key : Std.TransCmp (comparePair : String × String → String × String → Ordering) :=
  inferInstance

attribute [local instance] transCmp_key

namespace BoundedStateStore

variable {σ : Type}

/-- The states that are not too old. -/
def fresh (store : BoundedStateStore σ) (nowMs : Nat) : PairTable String String (StoredState σ) :=
  store.entries.filter fun _ entry => entry.isFresh store.ttlMs nowMs

def prune (store : BoundedStateStore σ) (nowMs : Nat) : BoundedStateStore σ :=
  { store with
    entries := store.fresh nowMs
    totalBytes := ((valuesOf (store.fresh nowMs)).map StoredState.sizeBytes).foldl (satAdd 64) 0 }

def get (store : BoundedStateStore σ) (localKeyId responseId : String) (nowMs : Nat) :
    Option (StoredState σ) × BoundedStateStore σ :=
  let store := store.prune nowMs
  (store.entries[(localKeyId, responseId)]?, store)

def evictOldest (store : BoundedStateStore σ) : Option (BoundedStateStore σ) :=
  match oldest? StoredState.observedAtMs store.entries with
  | none => none
  | some (key, entry) => some { store with
      entries := store.entries.erase key
      totalBytes := store.totalBytes - entry.sizeBytes }

/-- There is no room for a state of that size. -/
def crowded (store : BoundedStateStore σ) (sizeBytes : Nat) : Bool :=
  decide (store.maxEntries ≤ store.entries.size) ||
    decide (store.maxTotalBytes < satAdd 64 store.totalBytes sizeBytes)

/-- Evicts until there is room. Every round takes a state away, so one more than there are is enough
fuel. -/
def makeRoom : Nat → BoundedStateStore σ → Nat → Option (BoundedStateStore σ)
  | 0, _, _ => none
  | fuel + 1, store, sizeBytes =>
    if store.crowded sizeBytes then
      match store.evictOldest with
      | none => none
      | some store => makeRoom fuel store sizeBytes
    else some store

/-- The state that had the key goes before room is made. -/
def remove (store : BoundedStateStore σ) (key : String × String) : BoundedStateStore σ :=
  match store.entries[key]? with
  | none => store
  | some existing => { store with
      entries := store.entries.erase key
      totalBytes := store.totalBytes - existing.sizeBytes }

def insert (size : σ → Option Nat) (store : BoundedStateStore σ)
    (localKeyId responseId candidateId : String) (state : σ) (nowMs : Nat) :
    Bool × BoundedStateStore σ :=
  let store := store.prune nowMs
  match size state with
  | none => (false, store)
  | some sizeBytes =>
    if store.maxEntries = 0 ∨ store.maxEntryBytes = 0 ∨ store.maxTotalBytes = 0 ∨
        store.maxEntryBytes < sizeBytes ∨ store.maxTotalBytes < sizeBytes then
      (false, store)
    else
      let key := (localKeyId, responseId)
      let store := store.remove key
      match makeRoom (store.entries.size + 1) store sizeBytes with
      | none => (false, store)
      | some store =>
        (true, { store with
          entries := store.entries.insert key { state, candidateId, observedAtMs := nowMs, sizeBytes }
          totalBytes := satAdd 64 store.totalBytes sizeBytes })

end BoundedStateStore

/-! ## The two stores -/

def defaultMaxEntries : Nat := 64

def defaultMaxEntryBytes : Nat := 2 * 1024 * 1024

def defaultMaxTotalBytes : Nat := 16 * 1024 * 1024

abbrev MessagesBridgeStore := BoundedStateStore MessagesBridgeState

namespace MessagesBridgeStore

def withLimits (maxEntries ttlMs maxEntryBytes maxTotalBytes : Nat) : MessagesBridgeStore :=
  boundedStateStore _ maxEntries ttlMs maxEntryBytes maxTotalBytes

def default : MessagesBridgeStore :=
  withLimits defaultMaxEntries (60 * 60 * 1000) defaultMaxEntryBytes defaultMaxTotalBytes

def get (store : MessagesBridgeStore) (localKeyId responseId candidateId : String) (nowMs : Nat) :
    AdapterResult MessagesBridgeState × MessagesBridgeStore :=
  let (entry, store) := BoundedStateStore.get store localKeyId responseId nowMs
  (match entry with
    | none => .error AdapterError.continuationMissing
    | some entry =>
      if entry.candidateId ≠ candidateId then .error AdapterError.continuationMismatch
      else .ok entry.state, store)

end MessagesBridgeStore

abbrev NativeResponsesReplayStore := BoundedStateStore NativeResponsesReplayState

namespace NativeResponsesReplayStore

def withLimits (maxEntries ttlMs maxEntryBytes maxTotalBytes : Nat) : NativeResponsesReplayStore :=
  boundedStateStore _ maxEntries ttlMs maxEntryBytes maxTotalBytes

def get (store : NativeResponsesReplayStore) (localKeyId responseId candidateId : String)
    (nowMs : Nat) : Option NativeResponsesReplayState × NativeResponsesReplayStore :=
  let (entry, store) := BoundedStateStore.get store localKeyId responseId nowMs
  ((entry.filter fun entry => entry.candidateId = candidateId).map StoredState.state, store)

end NativeResponsesReplayStore

/-! ## Sequences of calls -/

inductive StoreCall (σ : Type)
  | insert (localKeyId responseId candidateId : String) (state : σ) (nowMs : Nat)
  | get (localKeyId responseId : String) (nowMs : Nat)

namespace StoreCall

variable {σ : Type}

def nowMs : StoreCall σ → Nat
  | .insert _ _ _ _ nowMs => nowMs
  | .get _ _ nowMs => nowMs

def run (size : σ → Option Nat) (store : BoundedStateStore σ) : StoreCall σ → BoundedStateStore σ
  | .insert localKeyId responseId candidateId state nowMs =>
    (store.insert size localKeyId responseId candidateId state nowMs).2
  | .get localKeyId responseId nowMs => (store.get localKeyId responseId nowMs).2

/-- A call files what it inserts, and drops what it evicts to make room. -/
def file (size : σ → Option Nat) (store : BoundedStateStore σ)
    (standing : String × String → Option (StoredState σ)) :
    StoreCall σ → String × String → Option (StoredState σ)
  | .get _ _ _ => standing
  | .insert localKeyId responseId candidateId state nowMs =>
    let (stored, store') := store.insert size localKeyId responseId candidateId state nowMs
    if !stored then standing
    else fun key =>
      if key = (localKeyId, responseId) then
        some { state, candidateId, observedAtMs := nowMs, sizeBytes := (size state).getD 0 }
      else if (store.fresh nowMs).contains key && !store'.entries.contains key then none
      else standing key

end StoreCall

section
variable {σ : Type} (size : σ → Option Nat)

def runCalls (store : BoundedStateStore σ) : List (StoreCall σ) → BoundedStateStore σ
  | [] => store
  | call :: calls => runCalls (call.run size store) calls

/-- What was last inserted with success under each key, unless it was evicted since. -/
def standingAfter (store : BoundedStateStore σ)
    (standing : String × String → Option (StoredState σ)) :
    List (StoreCall σ) → String × String → Option (StoredState σ)
  | [] => standing
  | call :: calls => standingAfter (call.run size store) (call.file size store standing) calls

end

/-! ## What a store is for -/

section
variable {σ : Type}

/-- The bytes of the states. -/
def bytesOf (entries : PairTable String String (StoredState σ)) : Nat :=
  weight StoredState.sizeBytes entries

/-- There is no room for a state of that size. -/
def Crowded (maxEntries maxTotalBytes sizeBytes : Nat)
    (entries : PairTable String String (StoredState σ)) : Prop :=
  maxEntries ≤ entries.size ∨ maxTotalBytes < bytesOf entries + sizeBytes

/-- The count is right and the limits are kept. -/
structure WithinLimits (store : BoundedStateStore σ) : Prop where
  totalBytes : store.totalBytes = bytesOf store.entries
  entries : store.entries.size ≤ store.maxEntries
  bytes : bytesOf store.entries ≤ store.maxTotalBytes

/-- The limits never change. -/
structure SameLimits (store store' : BoundedStateStore σ) : Prop where
  maxEntries : store'.maxEntries = store.maxEntries
  ttlMs : store'.ttlMs = store.ttlMs
  maxEntryBytes : store'.maxEntryBytes = store.maxEntryBytes
  maxTotalBytes : store'.maxTotalBytes = store.maxTotalBytes

theorem SameLimits.refl (store : BoundedStateStore σ) : SameLimits store store := ⟨rfl, rfl, rfl, rfl⟩

theorem SameLimits.trans {store store' store'' : BoundedStateStore σ} (h : SameLimits store store')
    (h' : SameLimits store' store'') : SameLimits store store'' :=
  ⟨h'.maxEntries.trans h.maxEntries, h'.ttlMs.trans h.ttlMs, h'.maxEntryBytes.trans h.maxEntryBytes,
    h'.maxTotalBytes.trans h.maxTotalBytes⟩

/-- A size that the limits allow. -/
structure Fits (store : BoundedStateStore σ) (sizeBytes : Nat) : Prop where
  maxEntries : 0 < store.maxEntries
  maxEntryBytes : 0 < store.maxEntryBytes
  maxTotalBytes : 0 < store.maxTotalBytes
  entry : sizeBytes ≤ store.maxEntryBytes
  total : sizeBytes ≤ store.maxTotalBytes

/-- What a store does after some calls. -/
structure StoreSpec (size : σ → Option Nat) (store : BoundedStateStore σ)
    (standing : String × String → Option (StoredState σ)) (lastMs : Nat) : Prop where
  within : WithinLimits store
  /-- The answer is what stands, if it is not too old. -/
  get : ∀ localKeyId responseId nowMs, lastMs ≤ nowMs →
    (store.get localKeyId responseId nowMs).1 =
      (standing (localKeyId, responseId)).filter fun entry => entry.isFresh store.ttlMs nowMs
  /-- What fits is inserted, and makes room in what is not too old. -/
  insert : ∀ localKeyId responseId candidateId state nowMs sizeBytes, size state = some sizeBytes →
    Fits store sizeBytes → ∃ victims kept,
      Evicts (Crowded store.maxEntries store.maxTotalBytes sizeBytes) StoredState.observedAtMs
        ((store.fresh nowMs).erase (localKeyId, responseId)) victims kept ∧
      (store.insert size localKeyId responseId candidateId state nowMs).1 = true ∧
      (store.insert size localKeyId responseId candidateId state nowMs).2.entries =
        kept.insert (localKeyId, responseId)
          { state, candidateId, observedAtMs := nowMs, sizeBytes }
  /-- What is not inserted changes nothing but for the states that are too old. -/
  refuse : ∀ localKeyId responseId candidateId state nowMs,
    (store.insert size localKeyId responseId candidateId state nowMs).1 = false →
    (store.insert size localKeyId responseId candidateId state nowMs).2.entries = store.fresh nowMs

theorem Fits.same {store store' : BoundedStateStore σ} {sizeBytes : Nat}
    (hfits : Fits store sizeBytes) (hsame : SameLimits store store') :
    Fits store' sizeBytes where
  maxEntries := hsame.maxEntries ▸ hfits.maxEntries
  maxEntryBytes := hsame.maxEntryBytes ▸ hfits.maxEntryBytes
  maxTotalBytes := hsame.maxTotalBytes ▸ hfits.maxTotalBytes
  entry := hsame.maxEntryBytes ▸ hfits.entry
  total := hsame.maxTotalBytes ▸ hfits.total

end

/-! ## One call -/

namespace BoundedStateStore

section
variable {σ : Type} {store store' : BoundedStateStore σ} {sizeBytes : Nat}

theorem getElem?_fresh (store : BoundedStateStore σ) (nowMs : Nat) (key : String × String) :
    (store.fresh nowMs)[key]? =
      store.entries[key]?.filter fun entry => entry.isFresh store.ttlMs nowMs :=
  ExtTreeMap.getElem?_filter'

theorem prune_sameLimits (store : BoundedStateStore σ) (nowMs : Nat) :
    SameLimits store (store.prune nowMs) := ⟨rfl, rfl, rfl, rfl⟩

theorem prune_within (h : WithinLimits store) (hlimit : store.maxTotalBytes < 2 ^ 64 - 1)
    (nowMs : Nat) : WithinLimits (store.prune nowMs) := by
  have hbytes : bytesOf (store.fresh nowMs) ≤ bytesOf store.entries := weight_filter_le _ _ _
  have htotal := hbytes.trans h.bytes
  refine ⟨?_, ?_, htotal⟩
  · rw [prune, foldl_satAdd 64 0 _ (Nat.zero_le _), Nat.zero_add]
    exact Nat.min_eq_left (htotal.trans (le_of_lt hlimit))
  · exact ExtTreeMap.size_filter_le_size.trans h.entries

theorem remove_sameLimits (store : BoundedStateStore σ) (key : String × String) :
    SameLimits store (store.remove key) := by
  unfold remove
  split
  · exact .refl store
  · exact ⟨rfl, rfl, rfl, rfl⟩

theorem entries_remove (store : BoundedStateStore σ) (key : String × String) :
    (store.remove key).entries = store.entries.erase key := by
  unfold remove
  split
  case h_1 hnone =>
    refine ExtTreeMap.ext_getElem? fun j => ?_
    rw [getElem?_erase_ite]
    split
    case isTrue heq => rw [← heq, hnone]
    case isFalse => rfl
  case h_2 => rfl

/-- A state goes. -/
theorem erase_within (h : WithinLimits store) {key : String × String} {entry : StoredState σ}
    (hentry : store.entries[key]? = some entry) :
    WithinLimits { store with
      entries := store.entries.erase key, totalBytes := store.totalBytes - entry.sizeBytes } := by
  have hweight : bytesOf (store.entries.erase key) + entry.sizeBytes = bytesOf store.entries :=
    weight_erase _ hentry
  have htotal := h.totalBytes
  have hbytes := h.bytes
  refine ⟨?_, ExtTreeMap.size_erase_le.trans h.entries, ?_⟩
  · show store.totalBytes - entry.sizeBytes = bytesOf (store.entries.erase key)
    omega
  · show bytesOf (store.entries.erase key) ≤ store.maxTotalBytes
    omega

theorem remove_within (h : WithinLimits store) (key : String × String) :
    WithinLimits (store.remove key) := by
  unfold remove
  split
  case h_1 => exact h
  case h_2 existing hexisting => exact erase_within h hexisting

theorem crowded_iff (h : WithinLimits store) (hlimit : store.maxTotalBytes < 2 ^ 64 - 1) :
    store.crowded sizeBytes = true ↔
      Crowded store.maxEntries store.maxTotalBytes sizeBytes store.entries := by
  rw [crowded, Bool.or_eq_true, decide_eq_true_eq, decide_eq_true_eq, h.totalBytes, satAdd, Crowded]
  have hbytes := h.bytes
  omega

/-- An empty store is not crowded. -/
theorem size_ne_zero_of_crowded (hfits : Fits store sizeBytes)
    (hcrowded : Crowded store.maxEntries store.maxTotalBytes sizeBytes store.entries) :
    store.entries.size ≠ 0 := by
  intro hzero
  have hbytes : bytesOf store.entries = 0 := weight_of_size hzero
  have hentries := hfits.maxEntries
  have htotal := hfits.total
  rcases hcrowded with hfull | hheavy <;> omega

/-- Room is made for what fits. -/
theorem makeRoom_evicts {fuel : Nat} (h : WithinLimits store)
    (hlimit : store.maxTotalBytes < 2 ^ 64 - 1) (hfits : Fits store sizeBytes)
    (hfuel : store.entries.size < fuel) :
    ∃ store' victims, makeRoom fuel store sizeBytes = some store' ∧ SameLimits store store' ∧
      WithinLimits store' ∧
      Evicts (Crowded store.maxEntries store.maxTotalBytes sizeBytes) StoredState.observedAtMs
        store.entries victims store'.entries := by
  induction fuel generalizing store with
  | zero => exact nomatch hfuel
  | succ fuel ih =>
    rw [makeRoom]
    by_cases hcrowded : store.crowded sizeBytes = true
    · have hfull := (crowded_iff h hlimit).mp hcrowded
      have hsome := size_ne_zero_of_crowded hfits hfull
      obtain ⟨⟨key, entry⟩, holdest⟩ :
          ∃ entry, oldest? StoredState.observedAtMs store.entries = some entry := oldest?_isSome hsome
      obtain ⟨hentry, hleast⟩ := oldest?_eq_some holdest
      let next : BoundedStateStore σ := { store with
        entries := store.entries.erase key, totalBytes := store.totalBytes - entry.sizeBytes }
      have hnext : store.evictOldest = some next := by rw [evictOldest, holdest]
      have hsame : SameLimits store next := ⟨rfl, rfl, rfl, rfl⟩
      have hsize : next.entries.size < fuel := by
        show (store.entries.erase key).size < fuel
        rw [ExtTreeMap.size_erase, if_pos (contains_of_getElem? hentry)]
        omega
      obtain ⟨store', victims, hroom, hkept, hwithin, hevicts⟩ :=
        ih (erase_within h hentry) hlimit (hfits.same hsame) hsize
      rw [if_pos hcrowded, hnext]
      exact ⟨store', key :: victims, hroom, hsame.trans hkept, hwithin, .evict hfull hentry hleast hevicts⟩
    · rw [if_neg hcrowded]
      exact ⟨store, [], rfl, .refl store, h, .settled fun hfull =>
        hcrowded ((crowded_iff h hlimit).mpr hfull)⟩

variable (size : σ → Option Nat) (localKeyId responseId candidateId : String) (state : σ) (nowMs : Nat)

/-- What does not fit is refused. -/
theorem insert_of_not_fits (h : ∀ sizeBytes, size state = some sizeBytes → ¬ Fits store sizeBytes) :
    store.insert size localKeyId responseId candidateId state nowMs = (false, store.prune nowMs) := by
  unfold insert
  dsimp only
  split
  case h_1 => rfl
  case h_2 sizeBytes hsize =>
    rw [if_pos]
    by_contra hnot
    push Not at hnot
    obtain ⟨hentries, hentryBytes, htotalBytes, hentry, htotal⟩ := hnot
    exact h sizeBytes hsize ⟨Nat.pos_of_ne_zero hentries, Nat.pos_of_ne_zero hentryBytes,
      Nat.pos_of_ne_zero htotalBytes, hentry, htotal⟩

theorem insert_of_fits (h : WithinLimits store) (hlimit : store.maxTotalBytes < 2 ^ 64 - 1)
    (hsize : size state = some sizeBytes) (hfits : Fits store sizeBytes) :
    ∃ store' victims kept,
      store.insert size localKeyId responseId candidateId state nowMs = (true, store') ∧
      SameLimits store store' ∧ WithinLimits store' ∧
      Evicts (Crowded store.maxEntries store.maxTotalBytes sizeBytes) StoredState.observedAtMs
        ((store.fresh nowMs).erase (localKeyId, responseId)) victims kept ∧
      store'.entries = kept.insert (localKeyId, responseId)
        { state, candidateId, observedAtMs := nowMs, sizeBytes } := by
  let removed := (store.prune nowMs).remove (localKeyId, responseId)
  have hsame : SameLimits store removed :=
    (prune_sameLimits store nowMs).trans (remove_sameLimits _ _)
  have hremoved : WithinLimits removed := remove_within (prune_within h hlimit nowMs) _
  have hentries : removed.entries = (store.fresh nowMs).erase (localKeyId, responseId) :=
    entries_remove _ _
  obtain ⟨room, victims, hroom, hkept, hwithin, hevicts⟩ :=
    makeRoom_evicts hremoved (hsame.maxTotalBytes ▸ hlimit) (hfits.same hsame) (Nat.lt_succ_self _)
  rw [hsame.maxEntries, hsame.maxTotalBytes, hentries] at hevicts
  have hall := hsame.trans hkept
  have hnone : room.entries[(localKeyId, responseId)]? = none := by
    have hkept := hevicts.getElem? (localKeyId, responseId)
    rw [getElem?_erase_ite, if_pos rfl] at hkept
    exact or_self_iff.mp hkept
  have hweight : bytesOf (room.entries.insert (localKeyId, responseId)
      { state, candidateId, observedAtMs := nowMs, sizeBytes }) = bytesOf room.entries + sizeBytes :=
    weight_insert _ hnone _
  -- There is room for one more.
  have hspace := hevicts.not_crowded
  rw [Crowded, not_or, not_le, not_lt] at hspace
  obtain ⟨hcount, hbytes⟩ := hspace
  refine ⟨{ room with
      entries := room.entries.insert (localKeyId, responseId)
        { state, candidateId, observedAtMs := nowMs, sizeBytes }
      totalBytes := satAdd 64 room.totalBytes sizeBytes }, victims, room.entries, ?_,
    ⟨hall.maxEntries, hall.ttlMs, hall.maxEntryBytes, hall.maxTotalBytes⟩, ⟨?_, ?_, ?_⟩, hevicts, rfl⟩
  · unfold insert
    dsimp only
    rw [hsize]
    dsimp only
    rw [if_neg, hroom]
    have hentries := hfits.maxEntries
    have hentryBytes := hfits.maxEntryBytes
    have htotalBytes := hfits.maxTotalBytes
    have hentry := hfits.entry
    have htotal := hfits.total
    show ¬ (store.maxEntries = 0 ∨ store.maxEntryBytes = 0 ∨ store.maxTotalBytes = 0 ∨
        store.maxEntryBytes < sizeBytes ∨ store.maxTotalBytes < sizeBytes)
    omega
  · show satAdd 64 room.totalBytes sizeBytes = _
    rw [hweight, hwithin.totalBytes]
    exact satAdd_of_lt (by omega)
  · show (room.entries.insert _ _).size ≤ room.maxEntries
    rw [ExtTreeMap.size_insert, hall.maxEntries]
    split <;> omega
  · show bytesOf (room.entries.insert _ _) ≤ room.maxTotalBytes
    rw [hweight, hall.maxTotalBytes]
    exact hbytes

end

end BoundedStateStore

/-! ## Runs -/

section
variable {σ : Type} {size : σ → Option Nat} {store : BoundedStateStore σ}
  {standing : String × String → Option (StoredState σ)} {lastMs : Nat}

/-- What is too old stays too old. -/
theorem StoredState.isFresh_of_le {entry : StoredState σ} {ttlMs nowMs nowMs' : Nat}
    (hle : nowMs ≤ nowMs') (h : entry.isFresh ttlMs nowMs' = true) :
    entry.isFresh ttlMs nowMs = true :=
  decide_eq_true ((Nat.sub_le_sub_right hle _).trans (of_decide_eq_true h))

/-- Between two calls: of what is not too old, the store says what stands. -/
structure Holding (store : BoundedStateStore σ)
    (standing : String × String → Option (StoredState σ)) (lastMs : Nat) : Prop where
  within : WithinLimits store
  agrees : ∀ key nowMs, lastMs ≤ nowMs →
    (store.entries[key]?.filter fun entry => entry.isFresh store.ttlMs nowMs) =
      (standing key).filter fun entry => entry.isFresh store.ttlMs nowMs

theorem Holding.later (h : Holding store standing lastMs) {nowMs : Nat} (hle : lastMs ≤ nowMs) :
    Holding store standing nowMs :=
  { h with agrees := fun key nowMs' hle' => h.agrees key nowMs' (hle.trans hle') }

theorem Holding.prune (h : Holding store standing lastMs) (hlimit : store.maxTotalBytes < 2 ^ 64 - 1)
    {nowMs : Nat} (hle : lastMs ≤ nowMs) : Holding (store.prune nowMs) standing nowMs where
  within := BoundedStateStore.prune_within h.within hlimit nowMs
  agrees key nowMs' hle' := by
    refine Eq.trans ?_ (h.agrees key nowMs' (hle.trans hle'))
    show ((store.fresh nowMs)[key]?.filter fun entry => entry.isFresh store.ttlMs nowMs') = _
    rw [BoundedStateStore.getElem?_fresh, Option.filter_filter]
    refine congrArg (store.entries[key]?.filter ·) (funext fun entry => ?_)
    rw [Bool.and_eq_right_iff_imp]
    exact StoredState.isFresh_of_le hle'

variable (size) in
/-- One call keeps the limits, and the store says what stands after it. -/
theorem StoreCall.run_holding (h : Holding store standing lastMs)
    (hlimit : store.maxTotalBytes < 2 ^ 64 - 1) (call : StoreCall σ) (hle : lastMs ≤ call.nowMs) :
    SameLimits store (call.run size store) ∧
      Holding (call.run size store) (call.file size store standing) call.nowMs := by
  cases call with
  | get localKeyId responseId nowMs =>
    exact ⟨BoundedStateStore.prune_sameLimits store nowMs, h.prune hlimit hle⟩
  | insert localKeyId responseId candidateId state nowMs =>
    have hpruned : Holding (store.prune nowMs) standing nowMs := h.prune hlimit hle
    by_cases hfits : ∃ sizeBytes, size state = some sizeBytes ∧ Fits store sizeBytes
    · obtain ⟨sizeBytes, hsize, hfits⟩ := hfits
      obtain ⟨store', victims, kept, hinsert, hsame, hwithin, hevicts, hentries⟩ :=
        BoundedStateStore.insert_of_fits size localKeyId responseId candidateId state nowMs
          h.within hlimit hsize hfits
      have hget : ∀ key, key ≠ (localKeyId, responseId) →
          store'.entries[key]? = none ∨ store'.entries[key]? = (store.fresh nowMs)[key]? := by
        intro key hne
        have hkept := hevicts.getElem? key
        rw [getElem?_erase_ite, if_neg (Ne.symm hne)] at hkept
        rw [hentries, getElem?_insert_ite, if_neg (Ne.symm hne)]
        exact hkept
      simp only [run, file, hinsert, hsize, Bool.not_true, Bool.false_eq_true, if_false,
        Option.getD_some]
      refine ⟨hsame, hwithin, fun key nowMs' hle' => ?_⟩
      have hbefore := hpruned.agrees key nowMs' hle'
      rw [hsame.ttlMs]
      by_cases hkey : key = (localKeyId, responseId)
      · rw [if_pos hkey, hentries, hkey, getElem?_insert_ite, if_pos rfl]
      · have hbefore : ((store.fresh nowMs)[key]?.filter fun entry =>
            entry.isFresh store.ttlMs nowMs') =
            (standing key).filter fun entry => entry.isFresh store.ttlMs nowMs' := hbefore
        rw [if_neg hkey, ← ExtTreeMap.isSome_getElem?_eq_contains,
          ← ExtTreeMap.isSome_getElem?_eq_contains]
        cases hthere : (store.fresh nowMs)[key]? with
        | none =>
          have hgone : store'.entries[key]? = none := by simpa [hthere] using hget key hkey
          rw [hthere] at hbefore
          rw [hgone]
          exact hbefore
        | some entry =>
          rw [hthere] at hbefore
          rcases hget key hkey with hgone | hkept
          · rw [hgone]
            rfl
          · rw [hkept, hthere]
            exact hbefore
    · have hrefused := @BoundedStateStore.insert_of_not_fits _ store size localKeyId responseId
        candidateId state nowMs fun sizeBytes hsize hfit => hfits ⟨sizeBytes, hsize, hfit⟩
      simp only [run, file, hrefused, Bool.not_false, if_true]
      exact ⟨BoundedStateStore.prune_sameLimits store nowMs, hpruned⟩

/-- The times do not go back, and none is later than the last. -/
structure Timely (calls : List (StoreCall σ)) (lastMs : Nat) : Prop where
  ordered : calls.Pairwise fun call call' => call.nowMs ≤ call'.nowMs
  last : ∀ call ∈ calls, call.nowMs ≤ lastMs

theorem runCalls_holding (h : Holding store standing lastMs)
    (hlimit : store.maxTotalBytes < 2 ^ 64 - 1) {calls : List (StoreCall σ)} {endMs : Nat}
    (hcalls : Timely calls endMs) (hstart : ∀ call ∈ calls, lastMs ≤ call.nowMs) (hend : lastMs ≤ endMs) :
    SameLimits store (runCalls size store calls) ∧
      Holding (runCalls size store calls) (standingAfter size store standing calls) endMs := by
  induction calls generalizing store standing lastMs with
  | nil => exact ⟨.refl store, h.later hend⟩
  | cons call calls ih =>
    obtain ⟨hfirst, hrest⟩ := List.pairwise_cons.mp hcalls.ordered
    obtain ⟨hbefore, hothers⟩ := List.forall_mem_cons.mp hcalls.last
    obtain ⟨hsame, hnext⟩ := call.run_holding size h hlimit (hstart call List.mem_cons_self)
    obtain ⟨hkept, hfinal⟩ := ih hnext (hsame.maxTotalBytes ▸ hlimit) ⟨hrest, hothers⟩ hfirst hbefore
    exact ⟨hsame.trans hkept, hfinal⟩

theorem Holding.spec (h : Holding store standing lastMs) (hlimit : store.maxTotalBytes < 2 ^ 64 - 1) :
    StoreSpec size store standing lastMs where
  within := h.within
  get localKeyId responseId nowMs hle := by
    rw [← h.agrees _ nowMs hle]
    exact BoundedStateStore.getElem?_fresh store nowMs _
  insert localKeyId responseId candidateId state nowMs sizeBytes hsize hfits := by
    obtain ⟨store', victims, kept, hinsert, -, -, hevicts, hentries⟩ :=
      BoundedStateStore.insert_of_fits size localKeyId responseId candidateId state nowMs
        h.within hlimit hsize hfits
    rw [hinsert]
    exact ⟨victims, kept, hevicts, rfl, hentries⟩
  refuse localKeyId responseId candidateId state nowMs hrefused := by
    by_cases hfits : ∃ sizeBytes, size state = some sizeBytes ∧ Fits store sizeBytes
    · obtain ⟨sizeBytes, hsize, hfits⟩ := hfits
      obtain ⟨store', victims, kept, hinsert, -⟩ :=
        BoundedStateStore.insert_of_fits size localKeyId responseId candidateId state nowMs
          h.within hlimit hsize hfits
      rw [hinsert] at hrefused
      exact nomatch hrefused
    · rw [BoundedStateStore.insert_of_not_fits]
      · rfl
      · exact fun sizeBytes hsize hfit => hfits ⟨sizeBytes, hsize, hfit⟩

end

/-- What stands for a key, a response and a candidate. -/
def Stands {σ : Type} (store : BoundedStateStore σ)
    (standing : String × String → Option (StoredState σ))
    (localKeyId responseId candidateId : String) (nowMs : Nat) (state : σ) : Prop :=
  ∃ entry, standing (localKeyId, responseId) = some entry ∧ entry.isFresh store.ttlMs nowMs = true ∧
    entry.candidateId = candidateId ∧ entry.state = state

/-- A continuation is found for its own key and candidate only. -/
theorem messagesGet_eq_ok {size : MessagesBridgeState → Option Nat} {store : MessagesBridgeStore}
    {standing : String × String → Option (StoredState MessagesBridgeState)} {lastMs : Nat}
    (h : StoreSpec size store standing lastMs) (localKeyId responseId candidateId : String) {nowMs : Nat}
    (hle : lastMs ≤ nowMs) (state : MessagesBridgeState) :
    (MessagesBridgeStore.get store localKeyId responseId candidateId nowMs).1 = .ok state ↔
      Stands store standing localKeyId responseId candidateId nowMs state := by
  have hget := h.get localKeyId responseId nowMs hle
  simp only [MessagesBridgeStore.get, hget, Stands]
  cases standing (localKeyId, responseId) with
  | none => simp
  | some entry =>
    rw [Option.filter_some]
    by_cases hfresh : entry.isFresh store.ttlMs nowMs = true
    · rw [if_pos hfresh]
      by_cases hcandidate : entry.candidateId = candidateId <;> simp [hfresh, hcandidate]
    · rw [if_neg hfresh]
      simp [hfresh]

theorem nativeGet_eq_some {size : NativeResponsesReplayState → Option Nat}
    {store : NativeResponsesReplayStore}
    {standing : String × String → Option (StoredState NativeResponsesReplayState)} {lastMs : Nat}
    (h : StoreSpec size store standing lastMs) (localKeyId responseId candidateId : String) {nowMs : Nat}
    (hle : lastMs ≤ nowMs) (state : NativeResponsesReplayState) :
    (NativeResponsesReplayStore.get store localKeyId responseId candidateId nowMs).1 = some state ↔
      Stands store standing localKeyId responseId candidateId nowMs state := by
  have hget := h.get localKeyId responseId nowMs hle
  simp only [NativeResponsesReplayStore.get, hget, Stands]
  cases standing (localKeyId, responseId) with
  | none => simp
  | some entry =>
    rw [Option.filter_some]
    by_cases hfresh : entry.isFresh store.ttlMs nowMs = true
    · rw [if_pos hfresh]
      by_cases hcandidate : entry.candidateId = candidateId <;> simp [hfresh, hcandidate]
    · rw [if_neg hfresh]
      simp [hfresh]

/-- A store after calls, from what a new one has. -/
theorem storeSpec_of_calls {σ : Type} (size : σ → Option Nat)
    {maxEntries ttlMs maxEntryBytes maxTotalBytes : Nat} (hlimit : maxTotalBytes < 2 ^ 64 - 1)
    {calls : List (StoreCall σ)} {lastMs : Nat} (hcalls : Timely calls lastMs) :
    let store := boundedStateStore σ maxEntries ttlMs maxEntryBytes maxTotalBytes
    SameLimits store (runCalls size store calls) ∧
      StoreSpec size (runCalls size store calls) (standingAfter size store (fun _ => none) calls)
        lastMs := by
  intro store
  have hempty : bytesOf store.entries = 0 := weight_of_size ExtTreeMap.size_empty
  have hnew : Holding store (fun _ => none) 0 := {
    within := ⟨hempty.symm, Nat.zero_le _, hempty ▸ Nat.zero_le _⟩
    agrees := fun key nowMs _ => congrArg (Option.filter _) ExtTreeMap.getElem?_empty }
  obtain ⟨hsame, hholding⟩ := @runCalls_holding _ size _ _ _ hnew hlimit _ _ hcalls
    (fun _ _ => Nat.zero_le _) (Nat.zero_le _)
  exact ⟨hsame, hholding.spec (hsame.maxTotalBytes ▸ hlimit)⟩

/-- The store and the two kinds of it, in any sequence of calls. -/
theorem continuation_stores_spec {maxEntries ttlMs maxEntryBytes maxTotalBytes : Nat}
    (hlimit : maxTotalBytes < 2 ^ 64 - 1) :
    (∀ (σ : Type) (size : σ → Option Nat) (calls : List (StoreCall σ)) (lastMs : Nat),
      Timely calls lastMs →
      let store := boundedStateStore σ maxEntries ttlMs maxEntryBytes maxTotalBytes
      SameLimits store (runCalls size store calls) ∧
        StoreSpec size (runCalls size store calls) (standingAfter size store (fun _ => none) calls)
          lastMs) ∧
    (∀ size calls lastMs, Timely calls lastMs →
      ∀ localKeyId responseId candidateId nowMs state, lastMs ≤ nowMs →
      let store := MessagesBridgeStore.withLimits maxEntries ttlMs maxEntryBytes maxTotalBytes
      ((MessagesBridgeStore.get (runCalls size store calls) localKeyId responseId candidateId
          nowMs).1 = .ok state ↔
        Stands (runCalls size store calls) (standingAfter size store (fun _ => none) calls)
          localKeyId responseId candidateId nowMs state)) ∧
    ∀ size calls lastMs, Timely calls lastMs →
      ∀ localKeyId responseId candidateId nowMs state, lastMs ≤ nowMs →
      let store := NativeResponsesReplayStore.withLimits maxEntries ttlMs maxEntryBytes maxTotalBytes
      ((NativeResponsesReplayStore.get (runCalls size store calls) localKeyId responseId candidateId
          nowMs).1 = some state ↔
        Stands (runCalls size store calls) (standingAfter size store (fun _ => none) calls)
          localKeyId responseId candidateId nowMs state) := by
  refine ⟨fun σ size calls lastMs hcalls => storeSpec_of_calls size hlimit hcalls,
    fun size calls lastMs hcalls localKeyId responseId candidateId nowMs state hle => ?_,
    fun size calls lastMs hcalls localKeyId responseId candidateId nowMs state hle => ?_⟩
  · exact messagesGet_eq_ok (storeSpec_of_calls size hlimit hcalls).2 localKeyId responseId
      candidateId hle state
  · exact nativeGet_eq_some (storeSpec_of_calls size hlimit hcalls).2 localKeyId responseId
      candidateId hle state

example : MessagesBridgeStore.default.maxTotalBytes < 2 ^ 64 - 1 := by decide

/-- Two states, of which one fits. -/
def twoCalls : List (StoreCall Nat) :=
  [.insert "key" "first" "route" 600 100, .insert "key" "second" "route" 600 101]

theorem timely_twoCalls : Timely twoCalls 101 :=
  ⟨by decide, by decide⟩

theorem continuation_stores_spec_two :
    StoreSpec some (runCalls some (boundedStateStore Nat 4 60000 2048 1000) twoCalls)
      (standingAfter some (boundedStateStore Nat 4 60000 2048 1000) (fun _ => none) twoCalls) 101 :=
  ((continuation_stores_spec (by decide)).1 Nat some twoCalls 101 timely_twoCalls).2

example : ((runCalls some (boundedStateStore Nat 4 60000 2048 1000) twoCalls).get "key" "first" 101).1.isNone =
    true := by
  decide +kernel

/-- Three states of the largest size there is, in a store without a limit for all of them. -/
def largestCalls : List (StoreCall Nat) :=
  ["first", "second", "third"].map fun responseId => .insert "key" responseId "route" (2 ^ 63 - 1) 100

/-- The count of the bytes stops at the largest value of a word. -/
theorem count_saturates :
    (runCalls some (boundedStateStore Nat 4 60000 (2 ^ 63 - 1) (2 ^ 64 - 1)) largestCalls).totalBytes <
      bytesOf (runCalls some (boundedStateStore Nat 4 60000 (2 ^ 63 - 1) (2 ^ 64 - 1))
        largestCalls).entries ∧
    (runCalls some (boundedStateStore Nat 4 60000 (2 ^ 63 - 1) (2 ^ 64 - 1)) largestCalls).maxTotalBytes <
      bytesOf (runCalls some (boundedStateStore Nat 4 60000 (2 ^ 63 - 1) (2 ^ 64 - 1))
        largestCalls).entries := by
  decide +kernel

end Zenith.Protocol
