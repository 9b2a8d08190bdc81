import Mathlib
import Zenith.Telemetry.Database

/-!
# The usage store of the server

The usage tables of `store/usage.rs`: recording attempts, and `prune_usage_history_with_limits`, which moves
old requests into the rollups of the candidates and of the keys and leaves a tombstone for each of them.

Counters and times are below 2^63, where `as i64` keeps them; the hint of a candidate, a digest of its id, is
a parameter. The expressions of the sums are those of the desktop, so a row is measured as one of
`request_logs`.
-/

namespace Zenith.Server

open Zenith.Gateway Zenith.Rollups Zenith.Rows Zenith.Tables Zenith.Telemetry

/-- A `UsageEvent` with the fields that are recorded, and the time. -/
structure UsageEvent where
  requestId : String
  attempt : Nat
  localKeyId : String
  sourceId : String
  candidateId : Option String := none
  accountId : Option String := none
  requestedModel : Option String := none
  resolvedModel : Option String := none
  success : Bool
  latencyMs : Stored
  ttftMs : Option Stored := none
  generationMs : Option Stored := none
  inputTokens : Option Stored := none
  cachedInputTokens : Option Stored := none
  cacheWriteInputTokens : Option Stored := none
  cacheWriteTtl : Option Gateway.CacheWriteTtl := none
  reasoningTokens : Option Stored := none
  outputTokens : Option Stored := none
  totalTokens : Option Stored := none
  createdAtMs : Stored

/-- What a row of `usage_events` holds of an event. -/
structure UsageEntry where
  requestId : String
  attempt : Nat
  localKeyId : String
  candidateKind : CandidateKind
  candidateHint : String
  requestedModel : Option String
  resolvedModel : Option String
  success : Bool
  latencyMs : Stored
  ttftMs : Option Stored
  generationMs : Option Stored
  inputTokens : Option Stored
  cachedInputTokens : Option Stored
  cacheWriteInputTokens : Option Stored
  cacheWriteTtl : Option String
  reasoningTokens : Option Stored
  outputTokens : Option Stored
  totalTokens : Option Stored
  createdAtMs : Stored

/-- A row of `usage_events`. -/
structure UsageRow extends UsageEntry where
  id : Nat

namespace UsageEvent

def candidate (event : UsageEvent) : String :=
  (event.accountId.or event.candidateId).getD event.sourceId

def entry (event : UsageEvent) (hint : String → String) : UsageEntry where
  requestId := event.requestId
  attempt := event.attempt
  localKeyId := event.localKeyId
  candidateKind := if event.accountId.isSome then .account else .source
  candidateHint := hint event.candidate
  requestedModel := event.requestedModel
  resolvedModel := event.resolvedModel
  success := event.success
  latencyMs := event.latencyMs
  ttftMs := event.ttftMs
  generationMs := event.generationMs
  inputTokens := event.inputTokens
  cachedInputTokens := event.cachedInputTokens
  cacheWriteInputTokens := event.cacheWriteInputTokens
  cacheWriteTtl := event.cacheWriteTtl.bind anthropicTtl
  reasoningTokens := event.reasoningTokens
  outputTokens := event.outputTokens
  totalTokens := event.totalTokens
  createdAtMs := event.createdAtMs

end UsageEvent

namespace UsageEntry

def candidate (entry : UsageEntry) : CandidateModel where
  kind := entry.candidateKind
  candidateId := entry.candidateHint
  model := (entry.resolvedModel.or entry.requestedModel).getD ""

/-- The counters, under the names of `request_logs`. -/
def log (entry : UsageEntry) : RequestLog where
  id := 0
  createdAt := entry.createdAtMs
  requestId := entry.requestId
  attempt := entry.attempt
  sourceId := entry.candidateHint
  accountId := none
  requestedModel := entry.requestedModel
  resolvedModel := entry.resolvedModel
  success := entry.success
  latencyMs := entry.latencyMs
  ttftMs := entry.ttftMs
  generationMs := entry.generationMs
  inputTokens := entry.inputTokens
  cachedInputTokens := entry.cachedInputTokens
  cacheWriteInputTokens := entry.cacheWriteInputTokens
  cacheWriteTtl := entry.cacheWriteTtl
  reasoningTokens := entry.reasoningTokens
  outputTokens := entry.outputTokens
  totalTokens := entry.totalTokens
  usageAggregateRecorded := false

/-- The expressions of the groups of `usage_events`. -/
def column (entry : UsageEntry) (column : Column) : Option Nat := entry.log.column column

end UsageEntry

/-! ## Rollups -/

/-- The counters of `usage_candidate_rollups`, which has no column for a lifetime of cache writes. -/
inductive CandidateColumn
  | inputTokens
  | inputSamples
  | cachedInputTokens
  | cachedInputSamples
  | cacheWriteInputTokens
  | cacheWriteInputSamples
  | outputTokens
  | outputSamples
  | totalTokens
  | totalSamples
deriving DecidableEq, Repr

instance : Fintype CandidateColumn where
  elems := {.inputTokens, .inputSamples, .cachedInputTokens, .cachedInputSamples, .cacheWriteInputTokens,
    .cacheWriteInputSamples, .outputTokens, .outputSamples, .totalTokens, .totalSamples}
  complete column := by cases column <;> decide

/-- The expression of a column. -/
def CandidateColumn.expression : CandidateColumn → Column
  | .inputTokens => .inputTokens
  | .inputSamples => .inputSamples
  | .cachedInputTokens => .cachedInputTokens
  | .cachedInputSamples => .cachedInputSamples
  | .cacheWriteInputTokens => .cacheWriteInputTokens
  | .cacheWriteInputSamples => .cacheWriteInputSamples
  | .outputTokens => .outputTokens
  | .outputSamples => .outputSamples
  | .totalTokens => .totalTokens
  | .totalSamples => .totalSamples

/-- The counters of `usage_key_rollups`. -/
inductive KeyColumn
  | totals (field : TotalsField)
  | inputSamples
  | outputSamples
  | totalSamples
deriving DecidableEq, Repr

instance : Fintype KeyColumn where
  elems := (Finset.univ.map ⟨KeyColumn.totals, fun _ _ h => KeyColumn.totals.inj h⟩) ∪
    {.inputSamples, .outputSamples, .totalSamples}
  complete column := by
    cases column with
    | totals field => exact Finset.mem_union_left _ (Finset.mem_map.mpr ⟨field, Finset.mem_univ _, rfl⟩)
    | inputSamples => exact Finset.mem_union_right _ (by decide)
    | outputSamples => exact Finset.mem_union_right _ (by decide)
    | totalSamples => exact Finset.mem_union_right _ (by decide)

/-- The key of `usage_key_rollups`. The period of all time is -1. -/
structure KeyPeriod where
  localKeyId : String
  periodStartMs : Int
  candidate : CandidateModel
deriving DecidableEq

def allTime : Int := -1

def dayMs : Nat := 86400000

namespace UsageEntry

def candidateColumn (entry : UsageEntry) (column : CandidateColumn) : Option Nat :=
  entry.column column.expression

def keyColumn (entry : UsageEntry) : KeyColumn → Option Nat
  | .totals field => entry.log.totalColumn field
  | .inputSamples => entry.column .inputSamples
  | .outputSamples => entry.column .outputSamples
  | .totalSamples => entry.column .totalSamples

def lifetime (entry : UsageEntry) : KeyPeriod := ⟨entry.localKeyId, allTime, entry.candidate⟩

def day (entry : UsageEntry) : KeyPeriod :=
  ⟨entry.localKeyId, (entry.createdAtMs.val / dayMs * dayMs : Nat), entry.candidate⟩

end UsageEntry

/-! ## Operations -/

structure UsageStore where
  /-- The ids of the accounts. -/
  accounts : List String
  usageEvents : List UsageRow
  usageCandidateRollups : List (Row CandidateModel CandidateColumn)
  usageKeyRollups : List (Row KeyPeriod KeyColumn)
  /-- The archived requests, with the time of their row. -/
  usageRequestTombstones : List (String × Nat)
  sequence : Nat

/-- A store without usage. -/
def UsageStore.fresh (accounts : List String) : UsageStore := ⟨accounts, [], [], [], [], 0⟩

def integerOverflow : String := "SQLite operation failed: integer overflow"

namespace UsageStore

/-- The guards of the insertion. -/
def accepts (store : UsageStore) (event : UsageEvent) : Bool :=
  !(store.usageRequestTombstones.map Prod.fst).contains event.requestId &&
    event.accountId.all fun accountId => store.accounts.contains accountId

/-- `ON CONFLICT(request_id) DO UPDATE … WHERE excluded.attempt >= usage_events.attempt`. -/
def replaceRow (row excluded : UsageRow) : UsageRow :=
  if row.attempt ≤ excluded.attempt then { excluded with id := row.id } else row

/-- One event of `record_usage_batch`. -/
def record (hint : String → String) (store : UsageStore) (event : UsageEvent) : UsageStore :=
  if store.accepts event then
    { store with
      usageEvents := upsert (fun row => row.requestId) replaceRow ⟨event.entry hint, store.sequence + 1⟩
        store.usageEvents
      sequence := store.sequence + 1 }
  else store

/-- The rows in the order of the limit: the newest first. -/
def newer (row row' : UsageRow) : Bool :=
  row'.createdAtMs < row.createdAtMs || (row.createdAtMs = row'.createdAtMs && row'.id ≤ row.id)

/-- `USAGE_PRUNE_PREDICATE`. -/
def prunes (store : UsageStore) (rawCutoffMs maxRawEvents : Nat) (row : UsageRow) : Bool :=
  row.createdAtMs.val < min rawCutoffMs maxInteger ||
    !(((store.usageEvents.mergeSort newer).take (min maxRawEvents maxInteger)).map UsageRow.id).contains row.id

/-- `prune_usage_history_with_limits`. -/
def prune (store : UsageStore) (rawCutoffMs maxRawEvents dailyRollupCutoffMs : Nat) : Except String UsageStore := do
  let archived := store.usageEvents.filter (store.prunes rawCutoffMs maxRawEvents)
  let candidates ← rollUp integerOverflow (fun row : UsageRow => row.candidate) (fun row => row.candidateColumn)
    store.usageCandidateRollups archived
  let lifetimes ← rollUp integerOverflow (fun row : UsageRow => row.lifetime) (fun row => row.keyColumn)
    store.usageKeyRollups archived
  let days ← rollUp integerOverflow (fun row : UsageRow => row.day) (fun row => row.keyColumn) lifetimes archived
  let tombstones := archived.foldl (fun tombstones row =>
    upsert Prod.fst (fun old new => (old.1, max old.2 new.2)) (row.requestId, row.createdAtMs.val) tombstones)
    store.usageRequestTombstones
  return { store with
    usageEvents := store.usageEvents.filter fun row => !store.prunes rawCutoffMs maxRawEvents row
    usageCandidateRollups := candidates
    usageKeyRollups := days.filter fun row =>
      !(0 ≤ row.key.periodStartMs && row.key.periodStartMs < min dailyRollupCutoffMs maxInteger)
    usageRequestTombstones := tombstones.filter fun tombstone => !(tombstone.2 < min dailyRollupCutoffMs maxInteger) }

end UsageStore

inductive Operation
  /-- One call of `record_usage_batch`. -/
  | record (events : List UsageEvent)
  | prune (rawCutoffMs maxRawEvents dailyRollupCutoffMs : Nat)

end Zenith.Server
