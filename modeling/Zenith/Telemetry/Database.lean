import Mathlib
import Zenith.Gateway.Usage
import Zenith.Lib.Rollups
import Zenith.Lib.Rows
import Zenith.Lib.Runs
import Zenith.Profiles.Document

/-!
# The telemetry database of the desktop

The usage tables of `local_pool/store/telemetry_db.rs` and what changes them: recording an attempt
(`record.rs`), archiving old requests (`ARCHIVE_USAGE_SQL`), clearing, purging accounts, and the migration
that rebuilds the rollups (`MIGRATION_026`).

A stored integer has 63 bits, since `sql_u64` clamps. Columns that no query of the totals or of the prices
reads are left out.
-/

namespace Zenith.Telemetry

open Zenith.Gateway Zenith.Profiles Zenith.Rollups Zenith.Rows Zenith.Tables

/-- `UsageEvent`, with the fields of a recorded attempt. -/
structure UsageEvent extends Gateway.UsageEvent where
  attempt : Nat
  sourceId : String
  resolvedModel : Option String := none
deriving DecidableEq

/-- `sql_u64`. -/
def sqlU64 (value : Nat) : Stored := ⟨min value maxInteger, by unfold maxInteger; omega⟩

def integerOverflow : LocalPoolError := ⟨.io, "local database error: integer overflow"⟩

inductive CandidateKind
  | account
  | source
deriving DecidableEq, Repr

/-- The key of `usage_candidate_rollups`. -/
structure CandidateModel where
  kind : CandidateKind
  candidateId : String
  model : String
deriving DecidableEq, Repr

def candidateModel (accountId : Option String) (sourceId : String) (resolvedModel requestedModel : Option String) :
    CandidateModel where
  kind := if accountId.isSome then .account else .source
  candidateId := accountId.getD sourceId
  model := (resolvedModel.or requestedModel).getD ""

/-- A row of `request_logs`. -/
structure RequestLog where
  id : Nat
  /-- In seconds, as `CURRENT_TIMESTAMP`. -/
  createdAt : Nat
  requestId : String
  attempt : Nat
  sourceId : String
  accountId : Option String
  requestedModel : Option String
  resolvedModel : Option String
  success : Bool
  latencyMs : Stored
  ttftMs : Option Stored
  generationMs : Option Stored
  inputTokens : Option Stored
  cachedInputTokens : Option Stored
  cacheWriteInputTokens : Option Stored
  cacheWriteTtl : Option String
  reasoningTokens : Option Stored
  outputTokens : Option Stored
  totalTokens : Option Stored
  usageAggregateRecorded : Bool
deriving DecidableEq

def RequestLog.candidate (row : RequestLog) : CandidateModel :=
  candidateModel row.accountId row.sourceId row.resolvedModel row.requestedModel

def UsageEvent.candidate (event : UsageEvent) : CandidateModel :=
  candidateModel event.accountId event.sourceId event.resolvedModel event.requestedModel

/-! ## Rollups -/

/-- The counters of `usage_candidate_rollups`. -/
inductive Column
  | inputTokens
  | inputSamples
  | cachedInputTokens
  | cachedInputSamples
  | cacheWriteInputTokens
  | cacheWriteInputSamples
  | cacheWrite5mTokens
  | cacheWrite1hTokens
  | unknownCacheWriteTokens
  | outputTokens
  | outputSamples
  | totalTokens
  | totalSamples
deriving DecidableEq, Repr

instance : Fintype Column where
  elems := {.inputTokens, .inputSamples, .cachedInputTokens, .cachedInputSamples, .cacheWriteInputTokens,
    .cacheWriteInputSamples, .cacheWrite5mTokens, .cacheWrite1hTokens, .unknownCacheWriteTokens, .outputTokens,
    .outputSamples, .totalTokens, .totalSamples}
  complete column := by cases column <;> decide

abbrev Rollup := Row CandidateModel Column

abbrev UsageAggregate := Aggregate CandidateModel Column

/-- One where there is a value, as `COUNT` and the sample counters have it. -/
def sampleOf (value : Option Stored) : Nat := if value.isSome then 1 else 0

def tokensOf (value : Option Stored) : Nat := (value.map Fin.val).getD 0

def UsageAggregate.fromValues (key : CandidateModel)
    (inputTokens cachedInputTokens cacheWriteInputTokens : Option Stored) (cacheWriteTtl : Option String)
    (outputTokens totalTokens : Option Stored) : UsageAggregate where
  key := key
  value
    | .inputTokens => tokensOf inputTokens
    | .inputSamples => sampleOf inputTokens
    | .cachedInputTokens => tokensOf cachedInputTokens
    | .cachedInputSamples => sampleOf cachedInputTokens
    | .cacheWriteInputTokens => tokensOf cacheWriteInputTokens
    | .cacheWriteInputSamples => sampleOf cacheWriteInputTokens
    | .cacheWrite5mTokens => if cacheWriteTtl = some "5m" then tokensOf cacheWriteInputTokens else 0
    | .cacheWrite1hTokens => if cacheWriteTtl = some "1h" then tokensOf cacheWriteInputTokens else 0
    | .unknownCacheWriteTokens =>
      if cacheWriteTtl = some "5m" ∨ cacheWriteTtl = some "1h" then 0 else tokensOf cacheWriteInputTokens
    | .outputTokens => tokensOf outputTokens
    | .outputSamples => sampleOf outputTokens
    | .totalTokens => tokensOf totalTokens
    | .totalSamples => sampleOf totalTokens

/-- `CacheWriteTtl::anthropic_ttl`. -/
def anthropicTtl : CacheWriteTtl → Option String
  | .provider => none
  | .fiveMinutes => some "5m"
  | .oneHour => some "1h"

def UsageAggregate.fromEvent (event : UsageEvent) : UsageAggregate :=
  fromValues event.candidate (event.inputTokens.map sqlU64) (event.cachedInputTokens.map sqlU64)
    (event.cacheWriteInputTokens.map sqlU64) (event.cacheWriteTtl.bind anthropicTtl)
    (event.outputTokens.map sqlU64) (event.totalTokens.map sqlU64)

def UsageAggregate.fromRow (row : RequestLog) : UsageAggregate :=
  fromValues row.candidate row.inputTokens row.cachedInputTokens row.cacheWriteInputTokens row.cacheWriteTtl
    row.outputTokens row.totalTokens

/-- The expressions that the archive and the migration add up, for the counters of a group: `none` is
`NULL`. -/
def RequestLog.column (row : RequestLog) : Column → Option Nat
  | .inputTokens => row.inputTokens.map Fin.val
  | .inputSamples => row.inputTokens.map fun _ => 1
  | .cachedInputTokens => row.cachedInputTokens.map Fin.val
  | .cachedInputSamples => row.cachedInputTokens.map fun _ => 1
  | .cacheWriteInputTokens => row.cacheWriteInputTokens.map Fin.val
  | .cacheWriteInputSamples => row.cacheWriteInputTokens.map fun _ => 1
  | .cacheWrite5mTokens =>
    if row.cacheWriteTtl = some "5m" then row.cacheWriteInputTokens.map Fin.val else some 0
  | .cacheWrite1hTokens =>
    if row.cacheWriteTtl = some "1h" then row.cacheWriteInputTokens.map Fin.val else some 0
  | .unknownCacheWriteTokens =>
    if row.cacheWriteTtl = none ∨ (row.cacheWriteTtl ≠ some "5m" ∧ row.cacheWriteTtl ≠ some "1h") then
      row.cacheWriteInputTokens.map Fin.val
    else some 0
  | .outputTokens => row.outputTokens.map Fin.val
  | .outputSamples => row.outputTokens.map fun _ => 1
  | .totalTokens => row.totalTokens.map Fin.val
  | .totalSamples => row.totalTokens.map fun _ => 1

/-! ## Totals -/

/-- The fields of `UsageTotals`, without the price that is added for a page. -/
inductive TotalsField
  | requests
  | successfulRequests
  | latencyMs
  | ttftMs
  | ttftSamples
  | generationMs
  | generationSamples
  | generationOutputTokens
  | inputTokens
  | cachedInputTokens
  | cachedInputSamples
  | cacheWriteInputTokens
  | cacheWriteInputSamples
  | reasoningTokens
  | outputTokens
  | totalTokens
  | speedOutputTokens
  | speedDurationMs
deriving DecidableEq, Repr

instance : Fintype TotalsField where
  elems := {.requests, .successfulRequests, .latencyMs, .ttftMs, .ttftSamples, .generationMs,
    .generationSamples, .generationOutputTokens, .inputTokens, .cachedInputTokens, .cachedInputSamples,
    .cacheWriteInputTokens, .cacheWriteInputSamples, .reasoningTokens, .outputTokens, .totalTokens,
    .speedOutputTokens, .speedDurationMs}
  complete field := by cases field <;> decide

abbrev UsageTotals := TotalsField → Nat

structure UsageTotalsSample where
  success : Bool
  latencyMs : Nat
  ttftMs : Option Nat
  generationMs : Option Nat
  inputTokens : Option Nat
  cachedInputTokens : Option Nat
  cacheWriteInputTokens : Option Nat
  reasoningTokens : Option Nat
  outputTokens : Option Nat
  totalTokens : Option Nat

namespace UsageTotalsSample

def generationOutputTokens (sample : UsageTotalsSample) : Nat :=
  sample.outputTokens.getD 0 - sample.reasoningTokens.getD 0 - 1

/-- The duration of a generation whose throughput is reliable. -/
def reliableGeneration (sample : UsageTotalsSample) : Option Nat :=
  sample.generationMs.filter fun generationMs =>
    sample.success && generationMs > 0 && sample.generationOutputTokens > 0 &&
      sample.generationOutputTokens ≤ generationMs

def speedMeasured (sample : UsageTotalsSample) : Bool :=
  sample.success && sample.outputTokens.any (· > 0) && sample.latencyMs > 0 &&
    sample.outputTokens.getD 0 ≤ sample.latencyMs

end UsageTotalsSample

/-- `usage_totals_from_sample`. It does not set `cached_input_samples`. -/
def usageTotalsFromSample (sample : UsageTotalsSample) : UsageTotals
  | .requests => 1
  | .successfulRequests => if sample.success then 1 else 0
  | .latencyMs => sample.latencyMs
  | .ttftMs => sample.ttftMs.getD 0
  | .ttftSamples => if sample.ttftMs.isSome then 1 else 0
  | .generationMs => sample.reliableGeneration.getD 0
  | .generationSamples => if sample.reliableGeneration.isSome then 1 else 0
  | .generationOutputTokens => if sample.reliableGeneration.isSome then sample.generationOutputTokens else 0
  | .inputTokens => sample.inputTokens.getD 0
  | .cachedInputTokens => sample.cachedInputTokens.getD 0
  | .cachedInputSamples => 0
  | .cacheWriteInputTokens => sample.cacheWriteInputTokens.getD 0
  | .cacheWriteInputSamples => if sample.cacheWriteInputTokens.isSome then 1 else 0
  | .reasoningTokens => sample.reasoningTokens.getD 0
  | .outputTokens => sample.outputTokens.getD 0
  | .totalTokens => sample.totalTokens.getD 0
  | .speedOutputTokens => if sample.speedMeasured then sample.outputTokens.getD 0 else 0
  | .speedDurationMs => if sample.speedMeasured then sample.latencyMs else 0

def UsageEvent.sample (event : UsageEvent) : UsageTotalsSample :=
  { event.toUsageEvent with }

def usageTotalsFromEvent (event : UsageEvent) : UsageTotals := usageTotalsFromSample event.sample

/-- The sample of the row that a record replaces. -/
def RequestLog.sample (row : RequestLog) : UsageTotalsSample where
  success := row.success
  latencyMs := row.latencyMs
  ttftMs := row.ttftMs.map Fin.val
  generationMs := row.generationMs.map Fin.val
  inputTokens := row.inputTokens.map Fin.val
  cachedInputTokens := row.cachedInputTokens.map Fin.val
  cacheWriteInputTokens := row.cacheWriteInputTokens.map Fin.val
  reasoningTokens := row.reasoningTokens.map Fin.val
  outputTokens := row.outputTokens.map Fin.val
  totalTokens := row.totalTokens.map Fin.val

def applyUsageTotalsDelta (target delta : UsageTotals) (add : Bool) : UsageTotals := fun field =>
  if add then satAdd 64 (target field) (delta field) else target field - delta field

namespace RequestLog

/-- `MAX(COALESCE(output_tokens, 0) - COALESCE(reasoning_tokens, 0) - 1, 0)`. -/
def generatedTokens (row : RequestLog) : Int :=
  max ((tokensOf row.outputTokens : Int) - tokensOf row.reasoningTokens - 1) 0

def generationCounts (row : RequestLog) : Bool :=
  row.success && row.generationMs.any fun generationMs => (0 : Int) < generationMs.val &&
    0 < row.generatedTokens && row.generatedTokens ≤ generationMs.val

def speedCounts (row : RequestLog) : Bool :=
  row.success && 0 < tokensOf row.outputTokens && 0 < row.latencyMs.val &&
    tokensOf row.outputTokens ≤ row.latencyMs.val

/-- The expressions of `USAGE_TOTAL_COLUMNS`, whose `COUNT`s are sums of ones. -/
def totalColumn (row : RequestLog) : TotalsField → Option Nat
  | .requests => some 1
  | .successfulRequests => some (if row.success then 1 else 0)
  | .latencyMs => some row.latencyMs
  | .ttftMs => row.ttftMs.map Fin.val
  | .ttftSamples => row.ttftMs.map fun _ => 1
  | .generationMs => some (if row.generationCounts then tokensOf row.generationMs else 0)
  | .generationSamples => if row.generationCounts then row.generationMs.map fun _ => 1 else none
  | .generationOutputTokens => some (if row.generationCounts then row.generatedTokens.toNat else 0)
  | .inputTokens => row.inputTokens.map Fin.val
  | .cachedInputTokens => row.cachedInputTokens.map Fin.val
  | .cachedInputSamples => row.cachedInputTokens.map fun _ => 1
  | .cacheWriteInputTokens => row.cacheWriteInputTokens.map Fin.val
  | .cacheWriteInputSamples => row.cacheWriteInputTokens.map fun _ => 1
  | .reasoningTokens => row.reasoningTokens.map Fin.val
  | .outputTokens => row.outputTokens.map Fin.val
  | .totalTokens => row.totalTokens.map Fin.val
  | .speedOutputTokens => some (if row.speedCounts then tokensOf row.outputTokens else 0)
  | .speedDurationMs => some (if row.speedCounts then row.latencyMs else 0)

end RequestLog

/-- `usage_totals` without a filter: the full scan. -/
def usageTotals (rows : List RequestLog) : Except LocalPoolError UsageTotals :=
  if ∀ field, sumOf (rows.map fun row => row.totalColumn field) ≤ maxInteger then
    .ok fun field => sumOf (rows.map fun row => row.totalColumn field)
  else .error integerOverflow

/-! ## Operations -/

structure TelemetryDb where
  requestLogs : List RequestLog
  usageCandidateRollups : List Rollup
  /-- The largest `id` so far. -/
  sequence : Nat
  usageTotalsCache : Option UsageTotals

/-- A new database. -/
def TelemetryDb.fresh : TelemetryDb := ⟨[], [], 0, none⟩

/-- The row of an event. -/
def rowOf (event : UsageEvent) (id now : Nat) : RequestLog where
  id := id
  createdAt := now
  requestId := event.requestId
  attempt := event.attempt
  sourceId := event.sourceId
  accountId := event.accountId
  requestedModel := event.requestedModel
  resolvedModel := event.resolvedModel
  success := event.success
  latencyMs := sqlU64 event.latencyMs
  ttftMs := event.ttftMs.map sqlU64
  generationMs := event.generationMs.map sqlU64
  inputTokens := event.inputTokens.map sqlU64
  cachedInputTokens := event.cachedInputTokens.map sqlU64
  cacheWriteInputTokens := event.cacheWriteInputTokens.map sqlU64
  cacheWriteTtl := event.cacheWriteTtl.bind anthropicTtl
  reasoningTokens := event.reasoningTokens.map sqlU64
  outputTokens := event.outputTokens.map sqlU64
  totalTokens := event.totalTokens.map sqlU64
  usageAggregateRecorded := true

def retentionSeconds : Nat := 30 * 24 * 60 * 60

namespace TelemetryDb

/-- `ARCHIVE_USAGE_SQL`. -/
def archiveUsage (db : TelemetryDb) (now : Nat) : Except LocalPoolError TelemetryDb := do
  let old (row : RequestLog) : Bool := row.createdAt < now - retentionSeconds
  let rollups ← rollUp integerOverflow RequestLog.candidate RequestLog.column db.usageCandidateRollups
    (db.requestLogs.filter fun row => old row && !row.usageAggregateRecorded)
  return { db with
    requestLogs := db.requestLogs.filter fun row => !old row
    usageCandidateRollups := rollups }

/-- `update_cached_usage_totals`. -/
def updateCachedUsageTotals (db : TelemetryDb) (previous : Option UsageTotals) (current : UsageTotals) :
    TelemetryDb :=
  let update (totals : UsageTotals) : UsageTotals :=
    let totals :=
      match previous with
      | some previous => applyUsageTotalsDelta totals previous false
      | none => totals
    applyUsageTotalsDelta totals current true
  { db with usageTotalsCache := db.usageTotalsCache.map update }

def clearCachedUsageTotals (db : TelemetryDb) : TelemetryDb := { db with usageTotalsCache := none }

/-- The tables after an event is accepted, before the archive. -/
def insertUsage (db : TelemetryDb) (event : UsageEvent) (now : Nat) : TelemetryDb :=
  let previous := lookupKey RequestLog.requestId event.requestId db.requestLogs
  let rollups :=
    match previous.filter RequestLog.usageAggregateRecorded with
    | some previous => applyAggregateDelta db.usageCandidateRollups (UsageAggregate.fromRow previous) (-1)
    | none => db.usageCandidateRollups
  { db with
    requestLogs := upsert RequestLog.requestId (fun row excluded => { excluded with id := row.id })
      (rowOf event (db.sequence + 1) now) db.requestLogs
    usageCandidateRollups := applyAggregateDelta rollups (UsageAggregate.fromEvent event) 1
    sequence := if previous.isNone then db.sequence + 1 else db.sequence }

def accepts (db : TelemetryDb) (event : UsageEvent) : Bool :=
  (lookupKey RequestLog.requestId event.requestId db.requestLogs).all fun previous =>
    previous.attempt ≤ event.attempt

/-- Is the archive run after this event? -/
def archivesAfter (db : TelemetryDb) (event : UsageEvent) : Bool :=
  (lookupKey RequestLog.requestId event.requestId db.requestLogs).isNone && (db.sequence + 1) % 256 = 0

def record (db : TelemetryDb) (event : UsageEvent) (now : Nat) : Except LocalPoolError TelemetryDb :=
  if event.attempt = 0 then .error ⟨.invalidState, "usage attempt must be at least one"⟩
  else if db.accepts event then
    let inserted := db.insertUsage event now
    if db.archivesAfter event then clearCachedUsageTotals <$> inserted.archiveUsage now
    else
      let previous := lookupKey RequestLog.requestId event.requestId db.requestLogs
      .ok (inserted.updateCachedUsageTotals (previous.map fun row => usageTotalsFromSample row.sample)
        (usageTotalsFromEvent event))
  else .ok db

def clear (db : TelemetryDb) : TelemetryDb :=
  { db with requestLogs := [], usageCandidateRollups := [] }.clearCachedUsageTotals

def purgeAccount (db : TelemetryDb) (accountId : String) : TelemetryDb :=
  { db with
    requestLogs := db.requestLogs.filter fun row => row.accountId ≠ some accountId
    usageCandidateRollups := db.usageCandidateRollups.filter fun row =>
      !(row.key.kind = .account && row.key.candidateId = accountId) }

/-- `replace_state_json_with_account_purge`, without the state values. -/
def purge (db : TelemetryDb) (accountIds : List String) : TelemetryDb :=
  let purged := accountIds.foldl purgeAccount db
  if accountIds.isEmpty then purged else purged.clearCachedUsageTotals

/-- `cached_usage_totals` for the unfiltered page of all time. -/
def cachedUsageTotals (db : TelemetryDb) : Except LocalPoolError (UsageTotals × TelemetryDb) :=
  match db.usageTotalsCache with
  | some cached => .ok (cached, db)
  | none => (usageTotals db.requestLogs).map fun totals => (totals, { db with usageTotalsCache := some totals })

/-- `open` of a database with the current schema. -/
def reopen (db : TelemetryDb) (now : Nat) : Except LocalPoolError TelemetryDb :=
  clearCachedUsageTotals <$> db.archiveUsage now

end TelemetryDb

/-- A database of the schema before `MIGRATION_026`, which has no flag on a row and no lifetimes in a rollup:
`usageAggregateRecorded` and the three columns of the lifetimes are not read. -/
structure LegacyDb where
  requestLogs : List RequestLog
  usageCandidateRollups : List Rollup
  sequence : Nat

/-- A rollup with the columns that the migration adds. -/
def Rollup.migrated (row : Rollup) : Rollup :=
  { row with cell := fun
      | .cacheWrite5mTokens => .integer 0
      | .cacheWrite1hTokens => .integer 0
      | .unknownCacheWriteTokens => row.cell .cacheWriteInputTokens
      | column => row.cell column }

/-- `MIGRATION_026`. -/
def LegacyDb.migrate (legacy : LegacyDb) : Except LocalPoolError TelemetryDb := do
  let rollups ← rollUp integerOverflow RequestLog.candidate RequestLog.column
    (legacy.usageCandidateRollups.map Rollup.migrated) legacy.requestLogs
  return {
    requestLogs := legacy.requestLogs.map fun row => { row with usageAggregateRecorded := true }
    usageCandidateRollups := rollups
    sequence := legacy.sequence
    usageTotalsCache := none }

inductive Operation
  | record (event : UsageEvent) (now : Nat)
  | clear
  | purge (accountIds : List String)
  /-- An unfiltered page of all time is read. -/
  | page
  | reopen (now : Nat)

/-- The database after an operation. One that fails changes nothing. -/
def step (db : TelemetryDb) : Operation → TelemetryDb
  | .record event now => (db.record event now).toOption.getD db
  | .clear => db.clear
  | .purge accountIds => db.purge accountIds
  | .page => (db.cachedUsageTotals.map Prod.snd).toOption.getD db
  | .reopen now => (db.reopen now).toOption.getD db

end Zenith.Telemetry
