import Mathlib
import Zenith.Telemetry.TotalsCache

/-!
# The rollups

A rollup is added to in place: a record takes back the contribution of the row that it replaces and adds its
own, an archive adds what was not rolled up, a purge deletes. `Rolled` says what this keeps: every column is
the sum of the contributions of the flagged rows and of the archived ones, or a floating-point number after a
sum left the 64 bits.
-/

namespace Zenith.Telemetry

open Zenith.Gateway Zenith.Profiles Zenith.Rollups Zenith.Rows Zenith.Runs Zenith.Tables

/-! ## Contributions -/

/-- What a request adds to the rollups. -/
structure Contribution where
  requestId : String
  attempt : Nat
  aggregate : UsageAggregate

def RequestLog.contribution (row : RequestLog) : Contribution := ⟨row.requestId, row.attempt, UsageAggregate.fromRow row⟩

def UsageEvent.contribution (event : UsageEvent) : Contribution :=
  ⟨event.requestId, event.attempt, UsageAggregate.fromEvent event⟩

theorem tokensOf_le (value : Option Stored) : tokensOf value ≤ maxInteger := by
  cases value with
  | none => exact Nat.zero_le _
  | some value => exact Nat.le_pred_of_lt value.isLt

theorem sampleOf_le (value : Option Stored) : sampleOf value ≤ maxInteger := by
  rw [sampleOf]
  split <;> decide

theorem value_le (row : RequestLog) (column : Column) : (UsageAggregate.fromRow row).value column ≤ maxInteger := by
  cases column with
  | inputTokens => exact tokensOf_le _
  | inputSamples => exact sampleOf_le _
  | cachedInputTokens => exact tokensOf_le _
  | cachedInputSamples => exact sampleOf_le _
  | cacheWriteInputTokens => exact tokensOf_le _
  | cacheWriteInputSamples => exact sampleOf_le _
  | cacheWrite5mTokens =>
    show (if _ then _ else 0) ≤ _
    split
    · exact tokensOf_le _
    · exact Nat.zero_le _
  | cacheWrite1hTokens =>
    show (if _ then _ else 0) ≤ _
    split
    · exact tokensOf_le _
    · exact Nat.zero_le _
  | unknownCacheWriteTokens =>
    show (if _ then 0 else _) ≤ _
    split
    · exact Nat.zero_le _
    · exact tokensOf_le _
  | outputTokens => exact tokensOf_le _
  | outputSamples => exact sampleOf_le _
  | totalTokens => exact tokensOf_le _
  | totalSamples => exact sampleOf_le _

/-- A query adds up what a row contributes. -/
theorem column_eq (row : RequestLog) (column : Column) :
    (row.column column).getD 0 = (UsageAggregate.fromRow row).value column := by
  cases column with
  | inputSamples => exact getD_map_one _
  | cachedInputSamples => exact getD_map_one _
  | cacheWriteInputSamples => exact getD_map_one _
  | outputSamples => exact getD_map_one _
  | totalSamples => exact getD_map_one _
  | cacheWrite5mTokens =>
    show (if row.cacheWriteTtl = some "5m" then _ else some 0).getD 0 = if row.cacheWriteTtl = some "5m" then _ else 0
    split <;> rfl
  | cacheWrite1hTokens =>
    show (if row.cacheWriteTtl = some "1h" then _ else some 0).getD 0 = if row.cacheWriteTtl = some "1h" then _ else 0
    split <;> rfl
  | unknownCacheWriteTokens =>
    show (if row.cacheWriteTtl = none ∨ (row.cacheWriteTtl ≠ some "5m" ∧ row.cacheWriteTtl ≠ some "1h") then _
      else some 0).getD 0 = if row.cacheWriteTtl = some "5m" ∨ row.cacheWriteTtl = some "1h" then 0 else _
    by_cases h5 : row.cacheWriteTtl = some "5m"
    · simp [h5]
    · by_cases h1 : row.cacheWriteTtl = some "1h"
      · simp [h1]
      · simp [h5, h1, tokensOf]
  | _ => rfl

theorem aggregateOf_eq : aggregateOf RequestLog.candidate RequestLog.column = UsageAggregate.fromRow := by
  funext row
  exact congrArg (Aggregate.mk row.candidate) (funext fun column => column_eq row column)

/-- What rows are rolled up as. -/
theorem total_aggregateOf (rows : List RequestLog) : total (aggregateOf RequestLog.candidate RequestLog.column) rows =
    total Contribution.aggregate (rows.map RequestLog.contribution) := by
  rw [aggregateOf_eq, total_map]
  rfl

/-! ## What the rollups hold -/

/-- The contributions of the rows that are flagged as rolled up. -/
def flagged (rows : List RequestLog) : List Contribution :=
  (rows.filter RequestLog.usageAggregateRecorded).map RequestLog.contribution

theorem flagged_perm {rows rows' : List RequestLog} (h : rows.Perm rows') : (flagged rows).Perm (flagged rows') :=
  (h.filter _).map _

@[simp] theorem flagged_append (rows rows' : List RequestLog) : flagged (rows ++ rows') = flagged rows ++ flagged rows' := by
  simp [flagged]

theorem flagged_eq_map {rows : List RequestLog} (h : ∀ row ∈ rows, row.usageAggregateRecorded = true) :
    flagged rows = rows.map RequestLog.contribution := by
  rw [flagged, List.filter_eq_self.mpr h]

/-- The rollups are the sums of the flagged rows and of what was archived; where `lost` holds, some columns
may have left the 64 bits. -/
structure Rolled (lost : Prop) (rows : List RequestLog) (rollups : List Rollup) (archived : List Contribution) :
    Prop where
  keyed : Keyed rollups
  holds : ∀ key column, Holds lost (cellAt rollups key column)
    (total Contribution.aggregate (flagged rows ++ archived) key column : Nat)

section
variable {lost : Prop} {db : TelemetryDb} {rollups : List Rollup} {archived : List Contribution}
  {event : UsageEvent} {now : Nat}

theorem Rolled.perm {rows rows' : List RequestLog} {archived' : List Contribution}
    (h : Rolled lost rows rollups archived)
    (hperm : (flagged rows ++ archived).Perm (flagged rows' ++ archived')) : Rolled lost rows' rollups archived' := by
  refine ⟨h.keyed, fun key column => ?_⟩
  rw [← total_perm hperm]
  exact h.holds key column

/-- The rows of the other requests, and the row of an event. -/
theorem perm_insertUsage (event : UsageEvent) (now : Nat) (hindexed : Indexed db) : ∃ row : RequestLog,
    row.contribution = event.contribution ∧ row.usageAggregateRecorded = true ∧
      (db.insertUsage event now).requestLogs.Perm (row :: others db.requestLogs event.requestId) := by
  refine ⟨_, ?_, ?_, upsert_perm hindexed⟩
  · rw [merged]
    split <;> rfl
  · rw [merged]
    split <;> rfl

/-- The rows before an event, without the one it replaces. -/
theorem rolled_subtracted (event : UsageEvent) (hindexed : Indexed db)
    (h : Rolled lost db.requestLogs db.usageCandidateRollups archived)
    (hfits : lost ∨ InRange Contribution.aggregate (flagged (others db.requestLogs event.requestId) ++ archived)) :
    Rolled lost (others db.requestLogs event.requestId)
      (match (lookupKey RequestLog.requestId event.requestId db.requestLogs).filter
          RequestLog.usageAggregateRecorded with
        | some previous => applyAggregateDelta db.usageCandidateRollups (UsageAggregate.fromRow previous) (-1)
        | none => db.usageCandidateRollups) archived := by
  cases hprevious : lookupKey RequestLog.requestId event.requestId db.requestLogs with
  | none => rwa [others_of_absent hprevious]
  | some previous =>
    obtain ⟨hmem, hid⟩ := lookupKey_eq_some hprevious
    have hrows : db.requestLogs.Perm (previous :: others db.requestLogs event.requestId) := by
      rw [← hid]
      exact perm_cons_filter hindexed hmem
    have hperm := flagged_perm hrows
    by_cases hflag : previous.usageAggregateRecorded = true
    · -- Its contribution is taken back.
      have hcons : flagged (previous :: others db.requestLogs event.requestId) =
          previous.contribution :: flagged (others db.requestLogs event.requestId) := by
        rw [flagged, List.filter_cons_of_pos hflag]
        rfl
      have htotal (key : CandidateModel) (column : Column) :
          (total Contribution.aggregate (flagged db.requestLogs ++ archived) key column : Int) =
            (if (UsageAggregate.fromRow previous).key = key then
              ((UsageAggregate.fromRow previous).value column : Int) else 0) +
            total Contribution.aggregate (flagged (others db.requestLogs event.requestId) ++ archived) key column := by
        rw [total_perm (hperm.append_right archived), hcons, List.cons_append, total_cons]
        have hcontribution : previous.contribution.aggregate = UsageAggregate.fromRow previous := rfl
        rw [hcontribution]
        split <;> simp
      rw [Option.filter_some, if_pos hflag]
      refine ⟨keyed_applyAggregateDelta h.keyed _ _, fun key column => ?_⟩
      have hholds := holds_applyAggregateDelta (UsageAggregate.fromRow previous) (-1) h.holds
        (hfits.imp id fun hfits column => ?_) key column
      · rw [htotal] at hholds
        convert hholds using 1
        split <;> omega
      · rw [htotal, if_pos rfl]
        convert fits_of_le (hfits (UsageAggregate.fromRow previous).key column) using 1
        omega
    · have hskip : flagged (previous :: others db.requestLogs event.requestId) =
          flagged (others db.requestLogs event.requestId) := by
        rw [flagged, List.filter_cons_of_neg hflag]
        rfl
      rw [Option.filter_some, if_neg hflag]
      exact h.perm ((hskip ▸ hperm).append_right archived)

/-- A record replaces the contribution of its request. -/
theorem rolled_insertUsage (hindexed : Indexed db)
    (h : Rolled lost db.requestLogs db.usageCandidateRollups archived)
    (hfits : lost ∨
      InRange Contribution.aggregate (event.contribution :: (flagged (others db.requestLogs event.requestId) ++ archived))) :
    Rolled lost (db.insertUsage event now).requestLogs (db.insertUsage event now).usageCandidateRollups
      archived := by
  have hsubtracted := rolled_subtracted event hindexed h <| hfits.imp id fun hfits =>
    hfits.mono fun key column => by rw [total_cons]; exact Nat.le_add_left ..
  obtain ⟨row, hcontribution, hflag, hperm⟩ := perm_insertUsage event now hindexed
  have hinserted : (flagged (db.insertUsage event now).requestLogs ++ archived).Perm
      (event.contribution :: (flagged (others db.requestLogs event.requestId) ++ archived)) := by
    have hflagged := flagged_perm hperm
    rw [flagged, flagged, List.filter_cons_of_pos hflag, List.map_cons, hcontribution] at hflagged
    exact hflagged.append_right archived
  have hcontribution : event.contribution.aggregate = UsageAggregate.fromEvent event := rfl
  refine ⟨keyed_applyAggregateDelta hsubtracted.keyed _ _, fun key column => ?_⟩
  have hholds := holds_applyAggregateDelta (UsageAggregate.fromEvent event) 1 hsubtracted.holds
    (hfits.imp id fun hfits column => ?_) key column
  · rw [total_perm hinserted, total_cons, hcontribution, Nat.cast_add, Int.add_comm, Nat.cast_ite, Nat.cast_zero]
    simp only [Int.mul_one] at hholds
    exact hholds
  · have hrange := fits_of_le (hfits (UsageAggregate.fromEvent event).key column)
    rw [total_cons, hcontribution, if_pos rfl] at hrange
    convert hrange using 1
    push_cast
    omega

/-- The contributions of the rows that an archive removes. -/
def archivedBy (rows : List RequestLog) (now : Nat) : List Contribution :=
  (rows.filter fun row => row.createdAt < now - retentionSeconds).map RequestLog.contribution

/-- An archive adds what was not rolled up yet. -/
theorem rolled_archiveUsage {db' : TelemetryDb} (h : Rolled lost db.requestLogs db.usageCandidateRollups archived)
    (harchive : db.archiveUsage now = .ok db')
    (hfits : lost ∨ InRange Contribution.aggregate (db.requestLogs.map RequestLog.contribution ++ archived)) :
    Rolled lost db'.requestLogs db'.usageCandidateRollups (archived ++ archivedBy db.requestLogs now) := by
  obtain ⟨rollups, hrollups, rfl⟩ := archiveUsage_eq_ok harchive
  have hkeyed := (rollUp_eq_ok hrollups).1
  let old (row : RequestLog) : Bool := row.createdAt < now - retentionSeconds
  let rest := db.requestLogs.filter fun row => !old row
  let unflagged := db.requestLogs.filter fun row => old row && !row.usageAggregateRecorded
  -- Of the old rows, the flagged ones are in the rollups already.
  have hold : ((db.requestLogs.filter old).map RequestLog.contribution).Perm
      (flagged (db.requestLogs.filter old) ++ unflagged.map RequestLog.contribution) := by
    have hunflagged : unflagged = (db.requestLogs.filter old).filter fun row => !row.usageAggregateRecorded := by
      rw [List.filter_filter]
      exact List.filter_congr fun row _ => Bool.and_comm ..
    rw [hunflagged, flagged, ← List.map_append]
    exact (((perm_filter_not _ _).trans List.perm_append_comm)).map _
  have hrows : (flagged db.requestLogs).Perm (flagged rest ++ flagged (db.requestLogs.filter old)) := by
    rw [← flagged_append]
    exact flagged_perm (perm_filter_not old _)
  have hsum (key : CandidateModel) (column : Column) :
      total Contribution.aggregate (flagged rest ++ (archived ++ archivedBy db.requestLogs now)) key column =
        total Contribution.aggregate (flagged db.requestLogs ++ archived) key column +
          total Contribution.aggregate (unflagged.map RequestLog.contribution) key column := by
    have harchived : total Contribution.aggregate (archivedBy db.requestLogs now) =
        total Contribution.aggregate (flagged (db.requestLogs.filter old) ++ unflagged.map RequestLog.contribution) :=
      total_perm hold
    rw [total_append, total_append, harchived, total_append, total_append, total_perm hrows, total_append]
    omega
  have hle (key : CandidateModel) (column : Column) :
      total Contribution.aggregate (flagged rest ++ (archived ++ archivedBy db.requestLogs now)) key column ≤
        total Contribution.aggregate (db.requestLogs.map RequestLog.contribution ++ archived) key column := by
    have hmap : total Contribution.aggregate (db.requestLogs.map RequestLog.contribution) =
        total Contribution.aggregate (rest.map RequestLog.contribution ++ archivedBy db.requestLogs now) := by
      rw [archivedBy, ← List.map_append]
      exact total_perm ((perm_filter_not old _).map _)
    have hflagged : total Contribution.aggregate (flagged rest) key column ≤
        total Contribution.aggregate (rest.map RequestLog.contribution) key column := by
      have hfilter : flagged rest = (rest.filter RequestLog.usageAggregateRecorded).map RequestLog.contribution := rfl
      have hperm := (perm_filter_not RequestLog.usageAggregateRecorded rest).map RequestLog.contribution
      have hsplit : total Contribution.aggregate _ = total Contribution.aggregate _ := total_perm hperm
      rw [hsplit, List.map_append, total_append, hfilter]
      exact Nat.le_add_left ..
    rw [total_append, total_append, total_append, hmap, total_append]
    omega
  refine ⟨hkeyed h.keyed, fun key column => ?_⟩
  show Holds lost (cellAt rollups key column)
    (total Contribution.aggregate (flagged rest ++ (archived ++ archivedBy db.requestLogs now)) key column : Nat)
  have hrange := hfits.imp id fun hfits => fits_of_le (Nat.le_trans (hle key column) (hfits key column))
  rw [hsum, Nat.cast_add, ← total_aggregateOf] at hrange ⊢
  exact (h.holds key column).rollUp hrollups hrange

/-- Is this the candidate of an account? -/
def CandidateModel.ofAccount (accountId : String) (candidate : CandidateModel) : Bool :=
  candidate.kind = .account && candidate.candidateId = accountId

theorem ofAccount_candidate (accountId : String) (row : RequestLog) :
    row.candidate.ofAccount accountId = decide (row.accountId = some accountId) := by
  rw [CandidateModel.ofAccount, RequestLog.candidate, candidateModel]
  cases row.accountId with
  | none => simp
  | some id => simp

/-- The contributions that a purge of an account leaves. -/
def withoutAccount (contributions : List Contribution) (accountId : String) : List Contribution :=
  contributions.filter fun contribution => !contribution.aggregate.key.ofAccount accountId

theorem map_withoutAccount (rows : List RequestLog) (accountId : String) :
    (rows.filter fun row => row.accountId ≠ some accountId).map RequestLog.contribution =
      withoutAccount (rows.map RequestLog.contribution) accountId := by
  rw [withoutAccount, List.filter_map]
  refine congrArg _ (List.filter_congr fun row _ => ?_)
  have hcandidate : row.contribution.aggregate.key = row.candidate := rfl
  rw [Function.comp_apply, hcandidate, ofAccount_candidate]
  simp

theorem total_withoutAccount (contributions : List Contribution) (accountId : String) (key : CandidateModel)
    (column : Column) : total Contribution.aggregate (withoutAccount contributions accountId) key column =
      if key.ofAccount accountId then 0 else total Contribution.aggregate contributions key column := by
  induction contributions with
  | nil => simp [withoutAccount]
  | cons contribution contributions ih =>
    rw [withoutAccount] at ih ⊢
    rw [List.filter_cons]
    by_cases hkey : contribution.aggregate.key = key
    · subst hkey
      by_cases hpurged : contribution.aggregate.key.ofAccount accountId = true
      · rw [if_neg (by simpa using hpurged), ih, if_pos hpurged, if_pos hpurged]
      · rw [if_pos (by simpa using hpurged), total_cons, ih, if_neg hpurged, if_neg hpurged, total_cons]
    · have hcons : total Contribution.aggregate (contribution :: contributions) key column =
          total Contribution.aggregate contributions key column := by
        rw [total_cons, if_neg hkey, Nat.zero_add]
      rw [hcons, ← ih]
      split
      · rw [total_cons, if_neg hkey, Nat.zero_add]
      · rfl

/-- A purge takes the rollups of the account with its rows. -/
theorem rolled_purgeAccount (h : Rolled lost db.requestLogs db.usageCandidateRollups archived) (accountId : String) :
    Rolled lost (db.purgeAccount accountId).requestLogs (db.purgeAccount accountId).usageCandidateRollups
      (withoutAccount archived accountId) := by
  let left (row : Rollup) : Bool := !row.key.ofAccount accountId
  refine ⟨h.keyed.sublist (List.filter_sublist.map _), fun key column => ?_⟩
  have hflagged : flagged (db.purgeAccount accountId).requestLogs = withoutAccount (flagged db.requestLogs) accountId := by
    rw [flagged, flagged, ← map_withoutAccount, List.filter_filter, TelemetryDb.purgeAccount, List.filter_filter]
    exact congrArg _ (List.filter_congr fun row _ => Bool.and_comm ..)
  have htotal : total Contribution.aggregate
      (flagged (db.purgeAccount accountId).requestLogs ++ withoutAccount archived accountId) key column =
      if key.ofAccount accountId then 0
      else total Contribution.aggregate (flagged db.requestLogs ++ archived) key column := by
    rw [hflagged, total_append, total_append, total_withoutAccount, total_withoutAccount]
    split <;> rfl
  rw [htotal]
  show Holds lost (cellAt (db.usageCandidateRollups.filter left) key column) _
  by_cases hkey : key.ofAccount accountId = true
  · -- No rollup of the account is left.
    have hnone : lookupKey Row.key key (db.usageCandidateRollups.filter left) = none := by
      refine lookupKey_eq_none.mpr fun hmem => ?_
      obtain ⟨row, hrow, rfl⟩ := List.mem_map.mp hmem
      have hleft := (List.mem_filter.mp hrow).2
      rw [show left row = !row.key.ofAccount accountId from rfl, hkey] at hleft
      exact nomatch hleft
    rw [if_pos hkey, cellAt, hnone]
    exact .inl rfl
  · rw [if_neg hkey, cellAt_filter fun row hrow => ?_]
    · exact h.holds key column
    · rw [show left row = !row.key.ofAccount accountId from rfl, hrow]
      simpa using hkey

theorem rolled_nil : Rolled lost [] [] [] := ⟨List.nodup_nil, fun _ _ => .inl rfl⟩

end

end Zenith.Telemetry
