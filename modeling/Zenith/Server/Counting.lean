import Mathlib
import Zenith.Lib.Runs
import Zenith.Server.UsageStore

/-!
# Every request once

`Tracked` follows a usage store with what it does not keep: the entries that were archived, and the requests
of the history, each with its highest attempt until it was archived. `requests_counted` says that the raw rows
and the archived entries are those requests, and that the rollups of the candidates and of the keys hold the
sums of the archived ones.
-/

namespace Zenith.Server

open Zenith.Rollups Zenith.Rows Zenith.Runs Zenith.Tables Zenith.Telemetry

/-- An entry takes the place of an earlier one of its request, unless that has a higher attempt. -/
def highest (old new : UsageEntry) : UsageEntry := if old.attempt ≤ new.attempt then new else old

structure Tracked where
  store : UsageStore
  archived : List UsageEntry
  requests : List UsageEntry

/-- The requests after an event: one that was archived keeps its counters, and a deleted account has no
usage. -/
def ledgerRecord (hint : String → String) (t : Tracked) (event : UsageEvent) : List UsageEntry :=
  if event.requestId ∈ t.archived.map UsageEntry.requestId then t.requests
  else if event.accountId.all fun accountId => t.store.accounts.contains accountId then
    upsert UsageEntry.requestId highest (event.entry hint) t.requests
  else t.requests

namespace Tracked

def record (hint : String → String) (t : Tracked) (event : UsageEvent) : Tracked where
  store := t.store.record hint event
  archived := t.archived
  requests := ledgerRecord hint t event

/-- The entries of the rows. -/
def live (t : Tracked) : List UsageEntry := t.store.usageEvents.map UsageRow.toUsageEntry

def step (hint : String → String) (t : Tracked) : Operation → Tracked
  | .record events => events.foldl (record hint) t
  | .prune rawCutoffMs maxRawEvents dailyRollupCutoffMs =>
    match t.store.prune rawCutoffMs maxRawEvents dailyRollupCutoffMs with
    | .ok store =>
      { t with
        store := store
        archived := t.archived ++
          (t.store.usageEvents.filter (t.store.prunes rawCutoffMs maxRawEvents)).map UsageRow.toUsageEntry }
    | .error _ => t

end Tracked

/-- What an entry adds to the rollup of its candidate. -/
def candidateOf : UsageEntry → Aggregate CandidateModel CandidateColumn :=
  aggregateOf UsageEntry.candidate UsageEntry.candidateColumn

/-- What an entry adds to the totals of its key. -/
def keyOf : UsageEntry → Aggregate KeyPeriod KeyColumn := aggregateOf UsageEntry.lifetime UsageEntry.keyColumn

/-- An event of an archived request comes while its tombstone is kept, and the sums that a prune finds are
64-bit integers. -/
def WithinRetention (t : Tracked) : Operation → Prop
  | .record events => ∀ event ∈ events, event.requestId ∈ t.archived.map UsageEntry.requestId →
      event.requestId ∈ t.store.usageRequestTombstones.map Prod.fst
  | .prune .. => InRange candidateOf t.requests ∧ InRange keyOf t.requests

/-- The raw rows and the archived entries are the requests, once each, and the rollups hold the sums of the
archived ones. -/
structure Accounted (t : Tracked) : Prop where
  requests : (t.live ++ t.archived).Perm t.requests
  once : (t.requests.map UsageEntry.requestId).Nodup
  tombstones : ∀ requestId ∈ t.store.usageRequestTombstones.map Prod.fst,
    requestId ∈ t.archived.map UsageEntry.requestId
  keyed : Keyed t.store.usageCandidateRollups ∧ Keyed t.store.usageKeyRollups
  candidates : ∀ key column,
    Rollups.Holds False (cellAt t.store.usageCandidateRollups key column) (total candidateOf t.archived key column : Nat)
  keys : ∀ localKeyId candidate column,
    Rollups.Holds False (cellAt t.store.usageKeyRollups ⟨localKeyId, allTime, candidate⟩ column)
      (total keyOf t.archived ⟨localKeyId, allTime, candidate⟩ column : Nat)

section
variable {hint : String → String} {t : Tracked}

theorem requestId_highest (old new : UsageEntry) (h : old.requestId = new.requestId) :
    (highest old new).requestId = new.requestId := by
  rw [highest]
  split
  · rfl
  · exact h

/-- The entries after an accepted event. -/
theorem live_upsert (rows : List UsageRow) (entry : UsageEntry) (id : Nat) :
    (upsert (fun row : UsageRow => row.requestId) UsageStore.replaceRow ⟨entry, id⟩ rows).map UsageRow.toUsageEntry =
      upsert UsageEntry.requestId highest entry (rows.map UsageRow.toUsageEntry) := by
  refine upsert_map (fun row => rfl) (fun row => ?_) rows
  rw [UsageStore.replaceRow, highest]
  split <;> rfl

theorem Accounted.record (h : Accounted t) {event : UsageEvent}
    (hretained : event.requestId ∈ t.archived.map UsageEntry.requestId →
      event.requestId ∈ t.store.usageRequestTombstones.map Prod.fst) : Accounted (t.record hint event) := by
  by_cases haccepts : t.store.accepts event = true
  · -- The request was not archived, since its tombstone would be there.
    have hguards := haccepts
    rw [UsageStore.accepts, Bool.and_eq_true, Bool.not_eq_true', List.contains_eq_mem, decide_eq_false_iff_not]
      at hguards
    have hnew : event.requestId ∉ t.archived.map UsageEntry.requestId := fun hmem => hguards.1 (hretained hmem)
    have hstore : t.store.record hint event = { t.store with
        usageEvents := upsert (fun row => row.requestId) UsageStore.replaceRow
          ⟨event.entry hint, t.store.sequence + 1⟩ t.store.usageEvents
        sequence := t.store.sequence + 1 } := if_pos haccepts
    have hledger : ledgerRecord hint t event = upsert UsageEntry.requestId highest (event.entry hint) t.requests := by
      rw [ledgerRecord, if_neg hnew, if_pos hguards.2]
    have hlive : (t.record hint event).live = upsert UsageEntry.requestId highest (event.entry hint) t.live := by
      rw [Tracked.live, Tracked.record, hstore]
      exact live_upsert ..
    have hnd : ((t.live ++ t.archived).map UsageEntry.requestId).Nodup :=
      (h.requests.map UsageEntry.requestId).nodup_iff.mpr h.once
    refine ⟨?_, ?_, ?_, ?_, ?_, ?_⟩
    · rw [hlive]
      show (_ ++ t.archived).Perm (ledgerRecord hint t event)
      rw [hledger]
      exact (perm_upsert_append hnew).symm.trans (upsert_congr_perm hnd h.requests)
    · show ((ledgerRecord hint t event).map UsageEntry.requestId).Nodup
      rw [hledger]
      exact nodup_upsert (fun old hid => requestId_highest old _ hid) h.once
    · rw [Tracked.record, hstore]
      exact h.tombstones
    · rw [Tracked.record, hstore]
      exact h.keyed
    · rw [Tracked.record, hstore]
      exact h.candidates
    · rw [Tracked.record, hstore]
      exact h.keys
  · -- Either it was archived, or its account is gone.
    have hstore : t.store.record hint event = t.store := if_neg haccepts
    have hledger : ledgerRecord hint t event = t.requests := by
      rw [ledgerRecord]
      split
      · rfl
      · rename_i hnew
        refine if_neg fun haccount => haccepts ?_
        rw [UsageStore.accepts, haccount, Bool.and_true, Bool.not_eq_true', List.contains_eq_mem,
          decide_eq_false_iff_not]
        exact fun htombstone => hnew (h.tombstones _ htombstone)
    have hsame : t.record hint event = t := by
      rw [Tracked.record, hstore, hledger]
    rwa [hsame]

theorem tombstones_archive {rows : List UsageRow} {tombstones : List (String × Nat)} {requestId : String}
    (h : requestId ∈ (rows.foldl (fun tombstones row => upsert Prod.fst (fun old new => (old.1, max old.2 new.2))
      (row.requestId, row.createdAtMs.val) tombstones) tombstones).map Prod.fst) :
    requestId ∈ tombstones.map Prod.fst ∨ requestId ∈ rows.map fun row => row.requestId := by
  induction rows generalizing tombstones with
  | nil => exact .inl h
  | cons row rows ih =>
    rw [List.foldl_cons] at h
    rw [List.map_cons, List.mem_cons]
    rcases ih h with h | h
    · rcases mem_keys_upsert (fun _ hkey => hkey) h with h | h
      · exact .inr (.inl h)
      · exact .inl h
    · exact .inr (.inr h)

/-- No day is the period of all time. -/
theorem total_day (rows : List UsageRow) (localKeyId : String) (candidate : CandidateModel) (column : KeyColumn) :
    total (aggregateOf (fun row : UsageRow => row.day) fun row => row.keyColumn) rows
      ⟨localKeyId, allTime, candidate⟩ column = 0 := by
  refine total_of_absent (fun hmem => ?_) column
  obtain ⟨row, -, hkey⟩ := List.mem_map.mp hmem
  have hperiod : ((row.createdAtMs.val / dayMs * dayMs : Nat) : Int) = -1 := congrArg KeyPeriod.periodStartMs hkey
  omega

/-- What is archived is part of the requests. -/
theorem total_archive {κ γ : Type} [DecidableEq κ] (of : UsageEntry → Aggregate κ γ) (h : Accounted t)
    (p : UsageRow → Bool) (key : κ) (column : γ) :
    total of t.archived key column +
        total (fun row : UsageRow => of row.toUsageEntry) (t.store.usageEvents.filter p) key column ≤
      total of t.requests key column := by
  have hrows := (perm_filter_not p t.store.usageEvents).map UsageRow.toUsageEntry
  have hrequests : total of t.requests = total of (t.live ++ t.archived) := total_perm h.requests.symm
  have hlive : total of t.live = total of (((t.store.usageEvents.filter fun row => !p row) ++
      t.store.usageEvents.filter p).map UsageRow.toUsageEntry) := total_perm hrows
  rw [hrequests, total_append, hlive, List.map_append, total_append, total_map UsageRow.toUsageEntry (t.store.usageEvents.filter p)]
  omega

theorem accounted_prune (h : Accounted t) {rawCutoffMs maxRawEvents dailyRollupCutoffMs : Nat}
    (hrange : InRange candidateOf t.requests ∧ InRange keyOf t.requests) :
    Accounted (t.step hint (.prune rawCutoffMs maxRawEvents dailyRollupCutoffMs)) := by
  rw [Tracked.step]
  cases hprune : t.store.prune rawCutoffMs maxRawEvents dailyRollupCutoffMs with
  | error e => exact h
  | ok store =>
    rw [UsageStore.prune] at hprune
    obtain ⟨candidates, hcandidates, hprune⟩ := bind_eq_ok.mp hprune
    obtain ⟨lifetimes, hlifetimes, hprune⟩ := bind_eq_ok.mp hprune
    obtain ⟨days, hdays, hprune⟩ := bind_eq_ok.mp hprune
    obtain rfl := Except.ok.inj hprune
    let pruned := t.store.prunes rawCutoffMs maxRawEvents
    have hfits {κ γ : Type} [DecidableEq κ] {of : UsageEntry → Aggregate κ γ} (hrange : InRange of t.requests)
        (key : κ) (column : γ) := fits_of_le (Nat.le_trans (total_archive of h pruned key column) (hrange key column))
    refine ⟨?_, h.once, fun requestId hmem => ?_, ?_, fun key column => ?_, fun localKeyId candidate column => ?_⟩
    · have hrows := (perm_filter_not pruned t.store.usageEvents).map UsageRow.toUsageEntry
      rw [List.map_append] at hrows
      refine List.Perm.trans ?_ h.requests
      refine List.Perm.trans ?_ (hrows.append_right t.archived).symm
      rw [List.append_assoc]
      exact List.Perm.append_left _ List.perm_append_comm
    · have hbefore := tombstones_archive ((List.filter_sublist.map Prod.fst).subset hmem)
      rw [List.map_append, List.mem_append, List.map_map]
      exact hbefore.imp (h.tombstones requestId) id
    · refine ⟨(rollUp_eq_ok hcandidates).1 h.keyed.1, ?_⟩
      exact ((rollUp_eq_ok hdays).1 ((rollUp_eq_ok hlifetimes).1 h.keyed.2)).sublist (List.filter_sublist.map _)
    · have hsum := (h.candidates key column).rollUp hcandidates (.inr (hfits hrange.1 key column))
      rw [total_append, total_map, Nat.cast_add]
      exact hsum
    · let key : KeyPeriod := ⟨localKeyId, allTime, candidate⟩
      have hfit := hfits hrange.2 key column
      have hlifetime := (h.keys localKeyId candidate column).rollUp hlifetimes (.inr hfit)
      have hday := total_day (t.store.usageEvents.filter pruned) localKeyId candidate column
      have hdaily := hlifetime.rollUp hdays (.inr (by rw [hday, Nat.cast_zero, Int.add_zero]; exact hfit))
      rw [hday, Nat.cast_zero, Int.add_zero] at hdaily
      -- The period of all time is never deleted.
      show Rollups.Holds False (cellAt (days.filter _) key column) (total keyOf (t.archived ++ _) key column : Nat)
      rw [cellAt_filter fun row hrow => ?_, total_append, total_map, Nat.cast_add]
      · exact hdaily
      · have hperiod : row.key.periodStartMs = -1 := congrArg KeyPeriod.periodStartMs hrow
        simp [hperiod]

theorem accounted_batch (h : Accounted t) {events : List UsageEvent} (hop : WithinRetention t (.record events)) :
    Accounted (events.foldl (Tracked.record hint) t) := by
  induction events generalizing t with
  | nil => exact h
  | cons event events ih =>
    obtain ⟨hevent, hevents⟩ := List.forall_mem_cons.mp hop
    -- A record changes neither the archive nor the tombstones.
    have htombstones : (t.store.record hint event).usageRequestTombstones = t.store.usageRequestTombstones := by
      rw [UsageStore.record]
      split <;> rfl
    refine ih (h.record hevent) fun later hmem harchived => ?_
    rw [Tracked.record, htombstones]
    exact hevents later hmem harchived

theorem accounted_step (h : Accounted t) {op : Operation} (hop : WithinRetention t op) :
    Accounted (t.step hint op) := by
  cases op with
  | record events => exact accounted_batch h hop
  | prune rawCutoffMs maxRawEvents dailyRollupCutoffMs => exact accounted_prune h hop

end

/-- Every request is counted once: its entry is a raw row or was archived, and the rollups with the raw rows
add up to the requests, for every candidate and for every key. -/
structure Counted (t : Tracked) : Prop where
  requests : (t.live ++ t.archived).Perm t.requests
  once : (t.requests.map UsageEntry.requestId).Nodup
  candidates : ∀ key column, ∃ archived : Nat,
    cellAt t.store.usageCandidateRollups key column = .integer archived ∧
      archived + total candidateOf t.live key column = total candidateOf t.requests key column
  keys : ∀ localKeyId candidate column, ∃ archived : Nat,
    cellAt t.store.usageKeyRollups ⟨localKeyId, allTime, candidate⟩ column = .integer archived ∧
      archived + total keyOf t.live ⟨localKeyId, allTime, candidate⟩ column =
        total keyOf t.requests ⟨localKeyId, allTime, candidate⟩ column

theorem requests_counted (hint : String → String) (accounts : List String) {ops : List Operation}
    (h : StepsMeet (Tracked.step hint) WithinRetention ⟨.fresh accounts, [], []⟩ ops) :
    Counted (run (Tracked.step hint) ⟨.fresh accounts, [], []⟩ ops) := by
  have hstart : Accounted ⟨.fresh accounts, [], []⟩ :=
    ⟨.nil, .nil, fun _ hmem => (nomatch hmem), ⟨List.nodup_nil, List.nodup_nil⟩, fun _ _ => .inl rfl, fun _ _ _ => .inl rfl⟩
  have haccounted := run_invariant (I := Accounted) (fun t op ht hop => accounted_step ht hop) hstart h
  generalize run (Tracked.step hint) ⟨.fresh accounts, [], []⟩ ops = t at haccounted
  have hsum {κ γ : Type} [DecidableEq κ] (of : UsageEntry → Aggregate κ γ) (key : κ) (column : γ) :
      total of t.archived key column + total of t.live key column = total of t.requests key column := by
    have hperm : total of (t.live ++ t.archived) = total of t.requests := total_perm haccounted.requests
    rw [← hperm, total_append, Nat.add_comm]
  exact ⟨haccounted.requests, haccounted.once,
    fun key column => ⟨_, (haccounted.candidates key column).exact, hsum _ _ _⟩,
    fun localKeyId candidate column => ⟨_, (haccounted.keys localKeyId candidate column).exact, hsum _ _ _⟩⟩

/-- A request of an API source. -/
def sampleEvent : UsageEvent where
  requestId := "request"
  attempt := 1
  localKeyId := "key"
  sourceId := "source"
  requestedModel := some "model"
  success := true
  latencyMs := 100
  inputTokens := some 20
  outputTokens := some 30
  createdAtMs := 0

/-- A request that is delivered again after it was archived. -/
theorem requests_counted_sample : Counted (run (Tracked.step id) ⟨.fresh [], [], []⟩
    [.record [sampleEvent], .prune 1 0 0, .record [sampleEvent]]) := by
  refine requests_counted id [] ⟨fun event _ hmem => (nomatch hmem), ⟨fun key column => ?_, fun key column => ?_⟩,
    fun event hmem _ => ?_, trivial⟩
  · show total candidateOf [sampleEvent.entry id] key column ≤ maxInteger
    rw [total_cons, total_nil]
    split
    · revert column
      decide
    · exact Nat.zero_le _
  · show total keyOf [sampleEvent.entry id] key column ≤ maxInteger
    rw [total_cons, total_nil]
    split
    · revert column
      decide
    · exact Nat.zero_le _
  · obtain rfl := List.mem_singleton.mp hmem
    decide

/-- Is every event counted, with an attempt that is at least its own? -/
def CountsHighest (t : Tracked) (events : List UsageEvent) : Prop :=
  ∀ event ∈ events, ∃ entry ∈ t.live ++ t.archived, entry.requestId = event.requestId ∧ event.attempt ≤ entry.attempt

instance (t : Tracked) (events : List UsageEvent) : Decidable (CountsHighest t events) :=
  inferInstanceAs (Decidable (∀ event ∈ events, ∃ entry ∈ t.live ++ t.archived, _))

def deletedAccountEvent : UsageEvent := { sampleEvent with accountId := some "account" }

def laterAttempt : UsageEvent := { sampleEvent with attempt := 2, inputTokens := some 50 }

/-- A request of an account that was deleted is not counted, and a later attempt of an archived request does
not change its counters. -/
theorem requests_dropped :
    ¬CountsHighest (run (Tracked.step id) ⟨.fresh [], [], []⟩ [.record [deletedAccountEvent]]) [deletedAccountEvent] ∧
    ¬CountsHighest (run (Tracked.step id) ⟨.fresh [], [], []⟩
      [.record [sampleEvent], .prune 1 0 0, .record [laterAttempt]]) [sampleEvent, laterAttempt] := by
  decide

end Zenith.Server
