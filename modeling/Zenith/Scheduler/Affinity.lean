import Zenith.Lib.Comparators
import Zenith.Lib.Tables

/-!
# Affinity cache

`scheduler/affinity.rs`: a bounded map from affinity keys to the candidate that owns them, with an
expiry time per binding. Every read prunes the expired bindings first. `Owns` says that a candidate
owns some key; `bind`, `restore` and their variants add no owner but the one they are given, and
`invalidateCandidate` leaves no key to its candidate.
-/

namespace Zenith.Scheduler

open Std Zenith.Tables Zenith.Comparators

structure Binding where
  candidateId : String
  ttlMs : Nat
  expiresAt : Nat
  lastTouchedAt : Nat
deriving DecidableEq, Repr

structure AffinityCache where
  bindings : Table String Binding := ∅
  maxEntries : Nat
  ttlMs : Nat

namespace AffinityCache

/-! ## Operations -/

def prune (cache : AffinityCache) (nowMs : Nat) : AffinityCache :=
  { cache with bindings := cache.bindings.filter fun _ binding => decide (nowMs < binding.expiresAt) }

/-- The order of eviction: least recently touched first, then by key. -/
def compareTouched (left right : String × Binding) : Ordering :=
  (compare left.2.lastTouchedAt right.2.lastTouchedAt).then (compare left.1 right.1)

def evictOldest (cache : AffinityCache) : AffinityCache :=
  match minBy? compareTouched cache.bindings.toList with
  | some (key, _) => { cache with bindings := cache.bindings.erase key }
  | none => cache

def get (cache : AffinityCache) (key : String) (nowMs : Nat) : AffinityCache × Option String :=
  let cache := cache.prune nowMs
  (cache, cache.bindings[key]?.map (·.candidateId))

def refresh (cache : AffinityCache) (key : String) (nowMs : Nat) : AffinityCache × Bool :=
  let cache := cache.prune nowMs
  match cache.bindings[key]? with
  | none => (cache, false)
  | some binding =>
    ({ cache with
        bindings := cache.bindings.insert key
          { binding with expiresAt := satAdd 64 nowMs binding.ttlMs, lastTouchedAt := nowMs } },
      true)

/-- Files a binding, evicting the oldest one when the cache is full and the key is new. -/
def file (cache : AffinityCache) (key : String) (binding : Binding) : AffinityCache :=
  let cache :=
    if !cache.bindings.contains key && decide (cache.maxEntries ≤ cache.bindings.size) then
      cache.evictOldest
    else cache
  { cache with bindings := cache.bindings.insert key binding }

def bindFor (cache : AffinityCache) (key candidateId : String) (nowMs ttlMs : Nat) :
    AffinityCache :=
  if cache.maxEntries = 0 ∨ ttlMs = 0 then cache
  else (cache.prune nowMs).file key ⟨candidateId, ttlMs, satAdd 64 nowMs ttlMs, nowMs⟩

def bind (cache : AffinityCache) (key candidateId : String) (nowMs : Nat) : AffinityCache :=
  cache.bindFor key candidateId nowMs cache.ttlMs

/-- Refreshes the existing owner or creates a binding when there is none; an owner is never
replaced. -/
def bindIfUnboundOrSame (cache : AffinityCache) (key candidateId : String) (nowMs : Nat) :
    AffinityCache × Bool :=
  let found := cache.get key nowMs
  match found.2 with
  | some current =>
    if current = candidateId then found.1.refresh key nowMs else (found.1, false)
  | none => (found.1.bind key candidateId nowMs, true)

def restore (cache : AffinityCache) (key candidateId : String) (expiresAt nowMs : Nat) :
    AffinityCache :=
  if cache.maxEntries = 0 ∨ expiresAt ≤ nowMs then cache
  else (cache.prune nowMs).file key ⟨candidateId, cache.ttlMs, expiresAt, nowMs⟩

def contains (cache : AffinityCache) (key : String) (nowMs : Nat) : AffinityCache × Bool :=
  let cache := cache.prune nowMs
  (cache, cache.bindings.contains key)

def invalidate (cache : AffinityCache) (key : String) : AffinityCache × Bool :=
  ({ cache with bindings := cache.bindings.erase key }, cache.bindings.contains key)

def invalidateCandidate (cache : AffinityCache) (candidateId : String) : AffinityCache × Nat :=
  let kept := cache.bindings.filter fun _ binding => decide (binding.candidateId ≠ candidateId)
  ({ cache with bindings := kept }, cache.bindings.size - kept.size)

/-! ## Lookups -/

/-- The owner of an unexpired binding. -/
def owner? (cache : AffinityCache) (key : String) (nowMs : Nat) : Option String :=
  (cache.bindings[key]?.filter fun binding => decide (nowMs < binding.expiresAt)).map (·.candidateId)

theorem get_snd (cache : AffinityCache) (key : String) (nowMs : Nat) :
    (cache.get key nowMs).2 = cache.owner? key nowMs := by
  simp [get, prune, owner?]

/-- Pruning at the same instant again does not change what a key is bound to. -/
theorem owner?_prune (cache : AffinityCache) (key : String) (nowMs : Nat) :
    (cache.prune nowMs).owner? key nowMs = cache.owner? key nowMs := by
  simp only [owner?, prune, ExtTreeMap.getElem?_filter', Option.filter_filter, Bool.and_self]

/-! ## Owners -/

/-- The candidate owns some key, expired or not. -/
def Owns (cache : AffinityCache) (id : String) : Prop :=
  ∃ (key : String) (binding : Binding), cache.bindings[key]? = some binding ∧
    binding.candidateId = id

theorem not_owns_empty (maxEntries ttlMs : Nat) (id : String) :
    ¬ (⟨∅, maxEntries, ttlMs⟩ : AffinityCache).Owns id := by
  rintro ⟨key, binding, h, _⟩
  simp at h

variable {cache : AffinityCache} {id : String}

theorem Owns.of_filter {p : String → Binding → Bool}
    (h : ({ cache with bindings := cache.bindings.filter p } : AffinityCache).Owns id) :
    cache.Owns id := by
  obtain ⟨key, binding, hget, hid⟩ := h
  simp only [ExtTreeMap.getElem?_filter', Option.filter_eq_some_iff] at hget
  exact ⟨key, binding, hget.1, hid⟩

variable {nowMs : Nat}

theorem Owns.of_prune (h : (cache.prune nowMs).Owns id) : cache.Owns id :=
  Owns.of_filter h

variable {key id : String}

theorem Owns.of_erase (h : ({ cache with bindings := cache.bindings.erase key } : AffinityCache).Owns id) :
    cache.Owns id := by
  obtain ⟨key', binding, hget, hid⟩ := h
  simp only [ExtTreeMap.getElem?_erase] at hget
  split at hget
  · cases hget
  · exact ⟨key', binding, hget, hid⟩

theorem Owns.of_insert {binding : Binding}
    (h : ({ cache with bindings := cache.bindings.insert key binding } : AffinityCache).Owns id) :
    binding.candidateId = id ∨ cache.Owns id := by
  obtain ⟨key', binding', hget, hid⟩ := h
  simp only [ExtTreeMap.getElem?_insert] at hget
  split at hget
  · exact .inl (Option.some.inj hget ▸ hid)
  · exact .inr ⟨key', binding', hget, hid⟩

theorem Owns.of_evictOldest (h : cache.evictOldest.Owns id) :
    cache.Owns id := by
  unfold evictOldest at h
  split at h
  · exact h.of_erase
  · exact h

theorem Owns.of_file {binding : Binding}
    (h : (cache.file key binding).Owns id) : binding.candidateId = id ∨ cache.Owns id := by
  unfold file at h
  rcases h.of_insert with h | h
  · exact .inl h
  · refine .inr ?_
    split at h
    · exact h.of_evictOldest
    · exact h

variable {key candidateId id : String}

theorem Owns.of_bindFor {nowMs ttlMs : Nat}
    (h : (cache.bindFor key candidateId nowMs ttlMs).Owns id) :
    candidateId = id ∨ cache.Owns id := by
  unfold bindFor at h
  split at h
  · exact .inr h
  · exact h.of_file.imp_right Owns.of_prune

theorem Owns.of_restore {expiresAt nowMs : Nat} (h : (cache.restore key candidateId expiresAt nowMs).Owns id) :
    candidateId = id ∨ cache.Owns id := by
  unfold restore at h
  split at h
  · exact .inr h
  · exact h.of_file.imp_right Owns.of_prune

theorem Owns.of_refresh (h : (cache.refresh key nowMs).1.Owns id) : cache.Owns id := by
  unfold refresh at h
  simp only at h
  split at h
  · exact h.of_prune
  · next binding hget =>
    rcases h.of_insert with h | h
    · exact Owns.of_prune ⟨key, binding, hget, h⟩
    · exact h.of_prune

theorem Owns.of_bindIfUnboundOrSame (h : (cache.bindIfUnboundOrSame key candidateId nowMs).1.Owns id) :
    candidateId = id ∨ cache.Owns id := by
  unfold bindIfUnboundOrSame get at h
  simp only at h
  split at h
  · split at h
    · exact .inr h.of_refresh.of_prune
    · exact .inr h.of_prune
  · exact h.of_bindFor.imp_right Owns.of_prune

theorem Owns.of_invalidateCandidate {candidateId id : String}
    (h : (cache.invalidateCandidate candidateId).1.Owns id) :
    candidateId ≠ id ∧ cache.Owns id := by
  refine ⟨?_, Owns.of_filter h⟩
  rintro rfl
  obtain ⟨key, binding, hget, hid⟩ := h
  simp only [invalidateCandidate, ExtTreeMap.getElem?_filter', Option.filter_eq_some_iff,
    decide_eq_true_eq] at hget
  exact hget.2 hid

end AffinityCache

end Zenith.Scheduler
