import Mathlib
import Zenith.Server.Counting
import Zenith.Telemetry.Equivalents

/-!
# The equivalents of a pruned history

The list of the candidates is priced from the sums of the rollups and of the raw rows. The rollups of the
server have no column for a lifetime of cache writes, so a prune makes the lifetime of what it archives
unknown, and a write of unknown lifetime has no price. `prune_keeps_equivalents` has the condition under
which that does not show.
-/

namespace Zenith.Server

open Zenith.Rollups Zenith.Rows Zenith.Runs Zenith.Tables Zenith.Telemetry Zenith.Text Zenith.Usage

/-! ## The query -/

/-- The columns that the query sums. -/
def summedColumns : List Column :=
  [.inputTokens, .cachedInputTokens, .cacheWriteInputTokens, .cacheWrite5mTokens, .cacheWrite1hTokens,
    .unknownCacheWriteTokens, .outputTokens, .totalTokens, .inputSamples, .cachedInputSamples,
    .cacheWriteInputSamples]

def invalidColumnType (column : Column) : String :=
  s!"SQLite operation failed: Invalid column type Real at index: {column.index}, name: SUM({column.name})"

/-- What the query selects of a rollup. -/
def rollupCell (cell : CandidateColumn → Cell) : Column → Cell
  | .inputTokens => cell .inputTokens
  | .inputSamples => cell .inputSamples
  | .cachedInputTokens => cell .cachedInputTokens
  | .cachedInputSamples => cell .cachedInputSamples
  | .cacheWriteInputTokens => cell .cacheWriteInputTokens
  | .cacheWriteInputSamples => cell .cacheWriteInputSamples
  | .cacheWrite5mTokens => .integer 0
  | .cacheWrite1hTokens => .integer 0
  | .unknownCacheWriteTokens => cell .cacheWriteInputTokens
  | .outputTokens => cell .outputTokens
  | .outputSamples => cell .outputSamples
  | .totalTokens => cell .totalTokens
  | .totalSamples => cell .totalSamples

namespace UsageStore

/-- The rows of the query: the rollups and the groups of the raw rows, summed by candidate and model. -/
def equivalentRows (store : UsageStore) : Except String (List UsageAggregate) := do
  let groups ← (groupRows (fun row : UsageRow => row.candidate) store.usageEvents).mapM
    (aggregateGroup integerOverflow fun row => row.column)
  let rows := store.usageCandidateRollups.map (fun row => Row.mk row.key (rollupCell row.cell)) ++
    groups.map fun group => Row.mk group.key fun column => .integer (group.value column)
  (groupRows Row.key rows).mapM fun group => do
    let row ← sumGroup integerOverflow summedColumns group
    row.read invalidColumnType candidateColumns

/-- `api_equivalents_with_resolver`. The catalog and its context are `prices`. -/
def apiEquivalents (store : UsageStore) (prices : CandidateModel → Option TokenPrice) :
    Except String (List (String × UsageValue)) := do
  let rows ← store.equivalentRows
  return (rows.map fun row => (row.key.candidateId, estimate prices candidateUsage row)).foldl mergeEntry []

/-! ## What it sums -/

/-- What a raw row adds. -/
def rowAggregate : UsageRow → UsageAggregate := aggregateOf (fun row => row.candidate) fun row => row.column

/-- The candidates and models with usage. -/
def candidates (store : UsageStore) : List CandidateModel :=
  (store.usageCandidateRollups.map Row.key ++ (store.usageEvents.map fun row => row.candidate).dedup).dedup

def sums (store : UsageStore) (key : CandidateModel) (column : Column) : Cell :=
  (rollupCell (cellAt store.usageCandidateRollups key) column).plus
    (.integer (total rowAggregate store.usageEvents key column))

/-- The row of a key. -/
def summed (store : UsageStore) (key : CandidateModel) : UsageAggregate := ⟨key, fun column => (store.sums key column).count⟩

/-- The sums are integers of 64 bits. -/
structure Summable (store : UsageStore) : Prop where
  rows : InRange rowAggregate store.usageEvents
  sums : ∀ key ∈ store.candidates, (∀ column ∈ summedColumns, (store.sums key column).Representable) ∧
    ∀ column ∈ candidateColumns, store.sums key column ≠ .real

variable {store : UsageStore}

theorem keyed_rollups (h : Keyed store.usageCandidateRollups) :
    Keyed (store.usageCandidateRollups.map fun row => Row.mk row.key (rollupCell row.cell)) := by
  rw [Keyed, List.map_map]
  exact h

theorem cellAt_rollups (rollups : List (Row CandidateModel CandidateColumn)) (key : CandidateModel) (column : Column) :
    cellAt (rollups.map fun row => Row.mk row.key (rollupCell row.cell)) key column =
      rollupCell (cellAt rollups key) column := by
  induction rollups with
  | nil => cases column <;> rfl
  | cons row rollups ih =>
    by_cases hkey : row.key = key
    · have hfirst : cellAt (row :: rollups) key = row.cell := by
        funext column
        rw [cellAt, lookupKey, List.find?_cons_of_pos (by simpa using hkey)]
      rw [hfirst, List.map_cons, cellAt, lookupKey, List.find?_cons_of_pos (by simpa using hkey)]
    · have hrest : cellAt (row :: rollups) key = cellAt rollups key := by
        funext column
        rw [cellAt, cellAt, lookupKey, lookupKey, List.find?_cons_of_neg (by simpa using hkey)]
      rw [hrest, ← ih, List.map_cons, cellAt, cellAt, lookupKey, lookupKey, List.find?_cons_of_neg (by simpa using hkey)]

/-- The groups of the raw rows, as rows of the query. -/
def groupedRows (rows : List UsageRow) : List (Row CandidateModel Column) :=
  ((groupRows (fun row : UsageRow => row.candidate) rows).map (exactAggregate fun row => row.column)).map
    fun group => Row.mk group.key fun column => .integer (group.value column)

theorem keys_groupedRows (rows : List UsageRow) :
    (groupedRows rows).map Row.key = (rows.map fun row => row.candidate).dedup := by
  have hkeys : ((groupRows (fun row : UsageRow => row.candidate) rows).map
      (exactAggregate fun row : UsageRow => row.column)).map Aggregate.key = _ := keys_groups rows
  unfold groupedRows
  rw [List.map_map, ← hkeys]
  rfl

theorem cellAt_groupedRows (rows : List UsageRow) (key : CandidateModel) (column : Column) :
    cellAt (groupedRows rows) key column = .integer (total rowAggregate rows key column) := by
  by_cases hkey : key ∈ rows.map fun row => row.candidate
  · have hkeyed : Keyed (groupedRows rows) := by
      unfold Keyed
      rw [keys_groupedRows]
      exact List.nodup_dedup _
    have hgroup : (key, rows.filter fun row => row.candidate = key) ∈
        groupRows (fun row : UsageRow => row.candidate) rows :=
      List.mem_map_of_mem (List.mem_dedup.mpr hkey)
    have hrow := cellAt_of_mem hkeyed (List.mem_map_of_mem (List.mem_map_of_mem hgroup)) column
    refine hrow.trans (congrArg (fun sum : Nat => Cell.integer sum) ?_)
    exact sum_column rows key column
  · have habsent : lookupKey Row.key key (groupedRows rows) = none := by
      rw [lookupKey_eq_none, keys_groupedRows, List.mem_dedup]
      exact hkey
    have hzero : total rowAggregate rows key column = 0 := total_of_absent hkey column
    rw [cellAt, habsent, hzero]
    rfl

/-- What the query sums for a key. -/
theorem sumCells_union (hkeyed : Keyed store.usageCandidateRollups) (key : CandidateModel)
    (column : Column) :
    sumCells (((store.usageCandidateRollups.map (fun row => Row.mk row.key (rollupCell row.cell)) ++
      groupedRows store.usageEvents).filter fun row => row.key = key).map fun row => row.cell column) =
      store.sums key column := by
  have hgroups : Keyed (groupedRows store.usageEvents) := by
    unfold Keyed
    rw [keys_groupedRows]
    exact List.nodup_dedup _
  rw [List.filter_append, List.map_append, sumCells_append, sumCells_keyed (keyed_rollups hkeyed), sumCells_keyed hgroups,
    cellAt_rollups, cellAt_groupedRows]
  rfl

theorem equivalentRows_eq_ok (hkeyed : Keyed store.usageCandidateRollups)
    {rows : List UsageAggregate} :
    store.equivalentRows = .ok rows ↔ rows = store.candidates.map store.summed ∧ Summable store := by
  let union := store.usageCandidateRollups.map (fun row => Row.mk row.key (rollupCell row.cell)) ++
    groupedRows store.usageEvents
  have hkeys : (union.map Row.key).dedup = store.candidates := by
    rw [List.map_append, List.map_map, keys_groupedRows]
    rfl
  let read (group : CandidateModel × List (Row CandidateModel Column)) : Except String UsageAggregate := do
    let row ← sumGroup integerOverflow summedColumns group
    row.read invalidColumnType candidateColumns
  -- One group: it is read where its sums are integers of 64 bits.
  have hread (group) (aggregate : UsageAggregate) : read group = .ok aggregate ↔
      aggregate = ⟨group.1, fun column => (sumCells (group.2.map fun row => row.cell column)).count⟩ ∧
        ((∀ column ∈ summedColumns, (sumCells (group.2.map fun row => row.cell column)).Representable) ∧
          ∀ column ∈ candidateColumns, sumCells (group.2.map fun row => row.cell column) ≠ .real) := by
    dsimp only [read]
    rw [bind_eq_ok]
    unfold sumGroup
    dsimp only
    split
    case isTrue h =>
      constructor
      · rintro ⟨row, hrow, hread⟩
        obtain rfl := Except.ok.inj hrow
        obtain ⟨rfl, hcells⟩ := read_eq_ok.mp hread
        exact ⟨rfl, h, hcells⟩
      · rintro ⟨rfl, -, hcells⟩
        exact ⟨_, rfl, read_eq_ok.mpr ⟨rfl, hcells⟩⟩
    case isFalse h => exact ⟨fun ⟨_, hrow, _⟩ => (nomatch hrow), fun ⟨_, hfits, _⟩ => absurd hfits h⟩
  have hunion : (groupRows Row.key union).mapM read = .ok rows ↔ rows = store.candidates.map store.summed ∧
      ∀ key ∈ store.candidates, (∀ column ∈ summedColumns, (store.sums key column).Representable) ∧
        ∀ column ∈ candidateColumns, store.sums key column ≠ .real := by
    rw [mapM_eq_ok hread, groupRows, List.map_map, List.forall_mem_map, hkeys]
    simp only [Function.comp_def, union, sumCells_union hkeyed]
    rfl
  unfold equivalentRows
  rw [bind_eq_ok]
  constructor
  · rintro ⟨groups, hgroups, h⟩
    obtain ⟨rfl, hfit⟩ := mapM_aggregateGroup.mp hgroups
    obtain ⟨rfl, hsums⟩ := hunion.mp h
    exact ⟨rfl, groups_fit.mp hfit, hsums⟩
  · rintro ⟨rfl, hrows, hsums⟩
    exact ⟨_, mapM_aggregateGroup.mpr ⟨rfl, groups_fit.mpr hrows⟩, hunion.mpr ⟨rfl, hsums⟩⟩

theorem valueOf_apiEquivalents (hkeyed : Keyed store.usageCandidateRollups)
    (hsummable : Summable store) (prices : CandidateModel → Option TokenPrice) :
    ∃ entries, store.apiEquivalents prices = .ok entries ∧ ∀ hint, valueOf entries hint =
      mergeAll ((store.candidates.filter fun key => key.candidateId = hint).map fun key =>
        estimate prices candidateUsage (store.summed key)) := by
  refine ⟨_, bind_eq_ok.mpr ⟨_, (equivalentRows_eq_ok hkeyed).mpr ⟨rfl, hsummable⟩, rfl⟩, fun hint => ?_⟩
  rw [valueOf_foldl, List.map_map, List.filter_map, List.map_map]
  have hhint (key : CandidateModel) : (store.summed key).key = key := rfl
  simp only [Function.comp_def, hhint]

end UsageStore

/-! ## One candidate -/

/-- The input that is not priced as cached. -/
def uncachedInput (row : UsageAggregate) : Nat :=
  row.value .inputTokens - min ((candidateUsage row).cachedInputTokens.getD 0) (row.value .inputTokens)

/-- A row before and after the lifetimes of some cache writes were lost. -/
structure Moved (row row' : UsageAggregate) (write5m write1h : Nat) : Prop where
  key : row'.key = row.key
  lost5m : row.value .cacheWrite5mTokens = row'.value .cacheWrite5mTokens + write5m
  lost1h : row.value .cacheWrite1hTokens = row'.value .cacheWrite1hTokens + write1h
  unknown : row'.value .unknownCacheWriteTokens = row.value .unknownCacheWriteTokens + write5m + write1h
  others : ∀ column ∈ candidateColumns, column ≠ .cacheWrite5mTokens → column ≠ .cacheWrite1hTokens →
    column ≠ .unknownCacheWriteTokens → row'.value column = row.value column
  sampled : row.value .cacheWriteInputSamples = 0 → write5m = 0 ∧ write1h = 0
  inRange : row.value .inputTokens ≤ maxInteger ∧ row.value .outputTokens ≤ maxInteger

/-- The writes whose lifetime is still known fill the input by themselves. -/
def Covered (rest kept5m kept1h write5m write1h : Nat) : Prop :=
  (write5m = 0 ∨ rest ≤ kept5m) ∧ (write1h = 0 ∨ rest ≤ kept5m + kept1h)

section
variable {row row' : UsageAggregate} {write5m write1h : Nat} {prices : CandidateModel → Option TokenPrice}

/-- The components of the input of a row with samples of cache writes. -/
theorem split_candidateUsage (hsamples : 0 < row.value .cacheWriteInputSamples) :
    (candidateUsage row).split =
      let rest := uncachedInput row
      let write5m := min (row.value .cacheWrite5mTokens) rest
      let write1h := min (row.value .cacheWrite1hTokens) (rest - write5m)
      let unknown := min (row.value .unknownCacheWriteTokens) (rest - write5m - write1h)
      ⟨some (rest - write5m - write1h - unknown),
        min ((candidateUsage row).cachedInputTokens.getD 0) (row.value .inputTokens), write5m, write1h, unknown⟩ := by
  have hgetD (tokens : Nat) : (if row.value .cacheWriteInputSamples > 0 then some tokens else none).getD 0 = tokens := by
    rw [if_pos hsamples]
    rfl
  have hinput : (candidateUsage row).inputTokens = some (row.value .inputTokens) := rfl
  have hrest : uncachedInput row = row.value .inputTokens -
    min ((candidateUsage row).cachedInputTokens.getD 0) (row.value .inputTokens) := rfl
  rw [split_of_input hinput hrest]
  dsimp only [candidateUsage]
  rw [hgetD, hgetD, hgetD]

theorem Moved.cached (h : Moved row row' write5m write1h) :
    (candidateUsage row').cachedInputTokens = (candidateUsage row).cachedInputTokens := by
  unfold candidateUsage
  dsimp only
  rw [h.others .inputSamples (by decide) nofun nofun nofun, h.others .cachedInputSamples (by decide) nofun nofun nofun,
    h.others .cachedInputTokens (by decide) nofun nofun nofun]

theorem Moved.rest_eq (h : Moved row row' write5m write1h) : uncachedInput row' = uncachedInput row := by
  unfold uncachedInput
  rw [h.cached, h.others .inputTokens (by decide) nofun nofun nofun]

/-- Without samples of cache writes there is nothing to lose. -/
theorem Moved.of_unsampled (h : Moved row row' write5m write1h) (hsamples : row.value .cacheWriteInputSamples = 0) :
    candidateUsage row' = candidateUsage row := by
  have hsamples' := h.others .cacheWriteInputSamples (by decide) nofun nofun nofun
  have hcached := h.cached
  unfold candidateUsage at hcached ⊢
  dsimp only at hcached ⊢
  rw [hcached, hsamples', hsamples, h.others .inputTokens (by decide) nofun nofun nofun,
    h.others .outputTokens (by decide) nofun nofun nofun, h.others .totalTokens (by decide) nofun nofun nofun]
  rfl

/-- Where the writes of known lifetime fill the input, each lifetime takes the same part of it. -/
theorem Moved.kept (h : Moved row row' write5m write1h)
    (hcovered : Covered (uncachedInput row) (row'.value .cacheWrite5mTokens) (row'.value .cacheWrite1hTokens)
      write5m write1h) :
    let rest := uncachedInput row
    let left := rest - min (row.value .cacheWrite5mTokens) rest
    min (row'.value .cacheWrite5mTokens) rest = min (row.value .cacheWrite5mTokens) rest ∧
    min (row'.value .cacheWrite1hTokens) left = min (row.value .cacheWrite1hTokens) left ∧
    min (row'.value .unknownCacheWriteTokens) (left - min (row.value .cacheWrite1hTokens) left) =
      min (row.value .unknownCacheWriteTokens) (left - min (row.value .cacheWrite1hTokens) left) := by
  intro rest left
  obtain ⟨h5m, h1h⟩ := hcovered
  have hwrite5m := h.lost5m
  have hwrite1h := h.lost1h
  have hunknown := h.unknown
  have hsame5m : min (row'.value .cacheWrite5mTokens) rest = min (row.value .cacheWrite5mTokens) rest := by
    omega
  have hleft : left = rest - row'.value .cacheWrite5mTokens := by
    omega
  have hsame1h : min (row'.value .cacheWrite1hTokens) left = min (row.value .cacheWrite1hTokens) left := by
    omega
  refine ⟨hsame5m, hsame1h, ?_⟩
  omega

/-- Where the writes of known lifetime fill the input, the row is priced as before. -/
theorem Moved.estimate_eq (h : Moved row row' write5m write1h)
    (hcovered : Covered (uncachedInput row) (row'.value .cacheWrite5mTokens) (row'.value .cacheWrite1hTokens)
      write5m write1h) :
    estimate prices candidateUsage row' = estimate prices candidateUsage row := by
  unfold estimate
  rw [h.key]
  by_cases hsamples : row.value .cacheWriteInputSamples = 0
  · rw [h.of_unsampled hsamples]
  · have hsamples' := h.others .cacheWriteInputSamples (by decide) nofun nofun nofun
    have hinput := h.others .inputTokens (by decide) nofun nofun nofun
    have houtput : (candidateUsage row').outputTokens.getD 0 = (candidateUsage row).outputTokens.getD 0 :=
      h.others .outputTokens (by decide) nofun nofun nofun
    have htotal : (candidateUsage row').totalTokens.getD 0 = (candidateUsage row).totalTokens.getD 0 :=
      h.others .totalTokens (by decide) nofun nofun nofun
    refine estimate_congr ?_ (congrArg some hinput) houtput htotal _
    rw [split_candidateUsage (Nat.pos_of_ne_zero hsamples), split_candidateUsage (by omega), h.rest_eq, h.cached,
      hinput]
    have hkept := h.kept hcovered
    dsimp only
    rw [hkept.1, hkept.2.1, hkept.2.2]

/-- What the writes leave of the input. -/
theorem uncached_eq (rest write5m write1h unknown : Nat) :
    rest - min write5m rest - min write1h (rest - min write5m rest) -
      min unknown (rest - min write5m rest - min write1h (rest - min write5m rest)) =
    rest - (write5m + write1h + unknown) := by
  have htake (tokens left : Nat) : left - min tokens left = left - tokens := by
    omega
  rw [htake write5m, htake write1h, htake unknown]
  omega

/-- The priced tokens of a quote for one lifetime: the rest of the input, the writes and the output. -/
theorem pricedTokens_candidateUsage (hsamples : 0 < row.value .cacheWriteInputSamples)
    (hrange : row.value .inputTokens ≤ maxInteger ∧ row.value .outputTokens ≤ maxInteger) (lifetime5m : Bool) :
    (estimateApiEquivalentWithTokenPrice (candidateUsage row) (some (if lifetime5m then
      { input := 0, cacheWrite5m := some 0, output := 0 } else
      { input := 0, cacheWrite1h := some 0, output := 0 }))).pricedTokens =
      uncachedInput row - (row.value .cacheWrite5mTokens + row.value .cacheWrite1hTokens +
          row.value .unknownCacheWriteTokens) +
        (if lifetime5m then min (row.value .cacheWrite5mTokens) (uncachedInput row)
          else min (row.value .cacheWrite1hTokens)
            (uncachedInput row - min (row.value .cacheWrite5mTokens) (uncachedInput row))) +
        row.value .outputTokens := by
  have hrest : uncachedInput row ≤ row.value .inputTokens := Nat.sub_le _ _
  have hmax : maxInteger < 2 ^ 63 := by decide
  have huncached := uncached_eq (uncachedInput row) (row.value .cacheWrite5mTokens) (row.value .cacheWrite1hTokens)
    (row.value .unknownCacheWriteTokens)
  have hsum (rest tokens output : Nat) (hfit : rest + tokens + output < 2 ^ 64) :
      satAdd 64 (satAdd 64 (satAdd 64 0 rest) tokens) output = rest + tokens + output := by
    unfold satAdd
    omega
  unfold estimateApiEquivalentWithTokenPrice ApiEquivalentUsage.components
  rw [split_candidateUsage hsamples]
  dsimp only
  rw [huncached]
  cases lifetime5m with
  | true => exact hsum _ _ _ (by omega)
  | false => exact hsum _ _ _ (by omega)

end

/-! ## A prune -/

/-- What the writers of the rollups keep: the primary key, and counters that are not negative. -/
structure Content (store : UsageStore) : Prop where
  keyed : Keyed store.usageCandidateRollups
  counters : ∀ row ∈ store.usageCandidateRollups, ∀ column value, row.cell column = .integer value → 0 ≤ value

namespace UsageStore

/-- The raw rows that a prune moves into the rollups. -/
def archived (store : UsageStore) (rawCutoffMs maxRawEvents : Nat) : List UsageRow :=
  store.usageEvents.filter (store.prunes rawCutoffMs maxRawEvents)

/-- The raw rows that stay. -/
def kept (store : UsageStore) (rawCutoffMs maxRawEvents : Nat) : List UsageRow :=
  store.usageEvents.filter fun row => !store.prunes rawCutoffMs maxRawEvents row

end UsageStore

section
variable {store store' : UsageStore} {rawCutoffMs maxRawEvents dailyRollupCutoffMs : Nat}

/-- The tables that the equivalents are computed from, after a prune. -/
theorem prune_eq_ok (h : store.prune rawCutoffMs maxRawEvents dailyRollupCutoffMs = .ok store') :
    rollUp integerOverflow (fun row : UsageRow => row.candidate) (fun row => row.candidateColumn)
      store.usageCandidateRollups (store.archived rawCutoffMs maxRawEvents) = .ok store'.usageCandidateRollups ∧
    store'.usageEvents = store.kept rawCutoffMs maxRawEvents := by
  unfold UsageStore.prune at h
  obtain ⟨candidates, hcandidates, h⟩ := bind_eq_ok.mp h
  obtain ⟨lifetimes, -, h⟩ := bind_eq_ok.mp h
  obtain ⟨days, -, h⟩ := bind_eq_ok.mp h
  obtain rfl := Except.ok.inj h
  exact ⟨hcandidates, rfl⟩

theorem total_pruned (store : UsageStore) (rawCutoffMs maxRawEvents : Nat) (key : CandidateModel) (column : Column) :
    total UsageStore.rowAggregate store.usageEvents key column =
      total UsageStore.rowAggregate (store.archived rawCutoffMs maxRawEvents) key column +
        total UsageStore.rowAggregate (store.kept rawCutoffMs maxRawEvents) key column := by
  rw [total_perm (perm_filter_not (store.prunes rawCutoffMs maxRawEvents) store.usageEvents), total_append, Nat.add_comm]
  rfl

/-- Every cache write has a lifetime or an unknown one. -/
theorem column_writes (entry : UsageEntry) : (entry.column .cacheWriteInputTokens).getD 0 =
    (entry.column .cacheWrite5mTokens).getD 0 + (entry.column .cacheWrite1hTokens).getD 0 +
      (entry.column .unknownCacheWriteTokens).getD 0 := by
  unfold UsageEntry.column UsageEntry.log RequestLog.column
  dsimp only
  by_cases h5m : entry.cacheWriteTtl = some "5m"
  · simp [h5m]
  · by_cases h1h : entry.cacheWriteTtl = some "1h"
    · simp [h1h]
    · simp [h5m, h1h]

theorem total_writes (rows : List UsageRow) (key : CandidateModel) :
    total UsageStore.rowAggregate rows key .cacheWriteInputTokens =
      total UsageStore.rowAggregate rows key .cacheWrite5mTokens +
        total UsageStore.rowAggregate rows key .cacheWrite1hTokens +
        total UsageStore.rowAggregate rows key .unknownCacheWriteTokens := by
  induction rows with
  | nil => rfl
  | cons row rows ih =>
    have hrow : (UsageStore.rowAggregate row).value .cacheWriteInputTokens =
        (UsageStore.rowAggregate row).value .cacheWrite5mTokens +
          (UsageStore.rowAggregate row).value .cacheWrite1hTokens +
          (UsageStore.rowAggregate row).value .unknownCacheWriteTokens := column_writes row.toUsageEntry
    rw [total_cons, total_cons, total_cons, total_cons, ih]
    split
    · rw [hrow]
      omega
    · omega

theorem unsampled_writes (rows : List UsageRow) (key : CandidateModel)
    (h : total UsageStore.rowAggregate rows key .cacheWriteInputSamples = 0) :
    total UsageStore.rowAggregate rows key .cacheWriteInputTokens = 0 := by
  refine total_eq_zero (fun row _ hsamples => ?_) h
  have hcolumn : ((row.cacheWriteInputTokens.map fun _ => 1).getD 0 : Nat) = 0 := hsamples
  show (row.cacheWriteInputTokens.map Fin.val).getD 0 = 0
  cases hwrite : row.cacheWriteInputTokens with
  | none => rfl
  | some tokens =>
    rw [hwrite] at hcolumn
    exact nomatch hcolumn

variable {column : Column}

/-- The rollup of a key in a table that can be summed, and its sum with the raw rows. -/
theorem summable_at (hcontent : Content store) (hsummable : store.Summable) (key : CandidateModel)
    (hcolumn : column ∈ summedColumns) : ∃ value : Nat,
      rollupCell (cellAt store.usageCandidateRollups key) column = .integer value ∧
        value + total UsageStore.rowAggregate store.usageEvents key column ≤ maxInteger := by
  have hzero : rollupCell (fun _ => .integer 0) column = .integer 0 := by
    cases column <;> rfl
  cases hrow : lookupKey Row.key key store.usageCandidateRollups with
  | none =>
    have hcell : cellAt store.usageCandidateRollups key = fun _ => .integer 0 := by
      unfold cellAt
      rw [hrow]
    refine ⟨0, by rw [hcell, hzero]; rfl, ?_⟩
    rw [Nat.zero_add]
    exact hsummable.rows key column
  | some row =>
    obtain ⟨hmem, rfl⟩ := lookupKey_eq_some hrow
    have hcell : cellAt store.usageCandidateRollups row.key = row.cell := by
      unfold cellAt
      rw [hrow]
    have hkey : row.key ∈ store.candidates :=
      List.mem_dedup.mpr (List.mem_append_left _ (List.mem_map_of_mem hmem))
    obtain ⟨hfits, hreal⟩ := hsummable.sums row.key hkey
    have hfit := hfits column hcolumn
    -- The cache writes are read as those of unknown lifetime.
    have hinteger : ∃ value : Nat, rollupCell row.cell column = .integer value := by
      have hcells (candidate : CandidateColumn) (column : Column) (hread : column ∈ candidateColumns)
          (hselect : rollupCell row.cell column = row.cell candidate) : ∃ value : Nat, row.cell candidate = .integer value := by
        cases hvalue : row.cell candidate with
        | integer value =>
          exact ⟨value.toNat, congrArg Cell.integer (Int.toNat_of_nonneg (hcontent.counters row hmem _ _ hvalue)).symm⟩
        | real =>
          refine absurd ?_ (hreal column hread)
          unfold UsageStore.sums
          rw [hcell, hselect, hvalue]
          rfl
      cases column with
      | inputTokens => exact hcells .inputTokens .inputTokens (by decide) rfl
      | inputSamples => exact hcells .inputSamples .inputSamples (by decide) rfl
      | cachedInputTokens => exact hcells .cachedInputTokens .cachedInputTokens (by decide) rfl
      | cachedInputSamples => exact hcells .cachedInputSamples .cachedInputSamples (by decide) rfl
      | cacheWriteInputTokens => exact hcells .cacheWriteInputTokens .unknownCacheWriteTokens (by decide) rfl
      | cacheWriteInputSamples => exact hcells .cacheWriteInputSamples .cacheWriteInputSamples (by decide) rfl
      | cacheWrite5mTokens => exact ⟨0, rfl⟩
      | cacheWrite1hTokens => exact ⟨0, rfl⟩
      | unknownCacheWriteTokens => exact hcells .cacheWriteInputTokens .unknownCacheWriteTokens (by decide) rfl
      | outputTokens => exact hcells .outputTokens .outputTokens (by decide) rfl
      | totalTokens => exact hcells .totalTokens .totalTokens (by decide) rfl
      | outputSamples => exact absurd hcolumn (by decide)
      | totalSamples => exact absurd hcolumn (by decide)
    obtain ⟨value, hvalue⟩ := hinteger
    refine ⟨value, by rw [hcell]; exact hvalue, ?_⟩
    unfold UsageStore.sums at hfit
    rw [hcell, hvalue] at hfit
    have hbound : (value + total UsageStore.rowAggregate store.usageEvents row.key column : Int) < 2 ^ 63 := hfit.2
    unfold maxInteger
    omega

/-- What a prune adds to the rollup of a key, as the query reads it. -/
def movedTokens (archived : List UsageRow) (key : CandidateModel) : Column → Nat
  | .cacheWrite5mTokens => 0
  | .cacheWrite1hTokens => 0
  | .unknownCacheWriteTokens => total UsageStore.rowAggregate archived key .cacheWriteInputTokens
  | column => total UsageStore.rowAggregate archived key column

theorem rollup_prune (hcontent : Content store) (hsummable : store.Summable)
    (hprune : store.prune rawCutoffMs maxRawEvents dailyRollupCutoffMs = .ok store') (key : CandidateModel)
    (hcolumn : column ∈ summedColumns) : ∃ value : Nat,
      rollupCell (cellAt store.usageCandidateRollups key) column = .integer value ∧
      rollupCell (cellAt store'.usageCandidateRollups key) column =
        .integer (value + movedTokens (store.archived rawCutoffMs maxRawEvents) key column : Nat) ∧
      value + total UsageStore.rowAggregate store.usageEvents key column ≤ maxInteger ∧
      value + movedTokens (store.archived rawCutoffMs maxRawEvents) key column +
        total UsageStore.rowAggregate (store.kept rawCutoffMs maxRawEvents) key column ≤ maxInteger := by
  obtain ⟨hrollups, -⟩ := prune_eq_ok hprune
  have hpruned := total_pruned store rawCutoffMs maxRawEvents key
  -- A column that is read from the counter of its own expression.
  have hplain (candidate : CandidateColumn) (hsummed : candidate.expression ∈ summedColumns)
      (hselect : ∀ cell, rollupCell cell candidate.expression = cell candidate) : ∃ value : Nat,
        cellAt store.usageCandidateRollups key candidate = .integer value ∧
        cellAt store'.usageCandidateRollups key candidate = .integer
          (value + total UsageStore.rowAggregate (store.archived rawCutoffMs maxRawEvents) key candidate.expression : Nat) ∧
        value + total UsageStore.rowAggregate store.usageEvents key candidate.expression ≤ maxInteger ∧
        value + total UsageStore.rowAggregate (store.archived rawCutoffMs maxRawEvents) key candidate.expression +
          total UsageStore.rowAggregate (store.kept rawCutoffMs maxRawEvents) key candidate.expression ≤ maxInteger := by
    obtain ⟨value, hcell, hfit⟩ := summable_at hcontent hsummable key hsummed
    rw [hselect] at hcell
    have hsum := hpruned candidate.expression
    have hholds : Rollups.Holds False (cellAt store.usageCandidateRollups key candidate) value := .inl hcell
    have hfits : value + total UsageStore.rowAggregate (store.archived rawCutoffMs maxRawEvents) key candidate.expression ≤
        maxInteger := by omega
    exact ⟨value, hcell, (hholds.rollUp hrollups (.inr (fits_of_le hfits))).exact, hfit, by omega⟩
  cases column with
  | inputTokens => exact hplain .inputTokens hcolumn fun _ => rfl
  | inputSamples => exact hplain .inputSamples hcolumn fun _ => rfl
  | cachedInputTokens => exact hplain .cachedInputTokens hcolumn fun _ => rfl
  | cachedInputSamples => exact hplain .cachedInputSamples hcolumn fun _ => rfl
  | cacheWriteInputTokens => exact hplain .cacheWriteInputTokens hcolumn fun _ => rfl
  | cacheWriteInputSamples => exact hplain .cacheWriteInputSamples hcolumn fun _ => rfl
  | outputTokens => exact hplain .outputTokens hcolumn fun _ => rfl
  | totalTokens => exact hplain .totalTokens hcolumn fun _ => rfl
  | outputSamples => exact absurd hcolumn (by decide)
  | totalSamples => exact absurd hcolumn (by decide)
  | cacheWrite5mTokens =>
    have hfit := hsummable.rows key .cacheWrite5mTokens
    have hsum := hpruned .cacheWrite5mTokens
    exact ⟨0, rfl, rfl, by omega, by rw [movedTokens]; omega⟩
  | cacheWrite1hTokens =>
    have hfit := hsummable.rows key .cacheWrite1hTokens
    have hsum := hpruned .cacheWrite1hTokens
    exact ⟨0, rfl, rfl, by omega, by rw [movedTokens]; omega⟩
  | unknownCacheWriteTokens =>
    obtain ⟨value, hcell, hcell', -, hfit⟩ := hplain .cacheWriteInputTokens (by decide) fun _ => rfl
    obtain ⟨value', hunknown, hfit'⟩ := summable_at hcontent hsummable key hcolumn
    obtain rfl : value = value' := Int.ofNat.inj (Cell.integer.inj (hcell.symm.trans hunknown))
    refine ⟨value, hcell, hcell', hfit', ?_⟩
    have hkept := total_writes (store.kept rawCutoffMs maxRawEvents) key
    have hexpression : CandidateColumn.cacheWriteInputTokens.expression = .cacheWriteInputTokens := rfl
    rw [hexpression] at hfit
    rw [movedTokens]
    omega

theorem summed_prune (hcontent : Content store) (hsummable : store.Summable)
    (hprune : store.prune rawCutoffMs maxRawEvents dailyRollupCutoffMs = .ok store') (key : CandidateModel)
    (hcolumn : column ∈ summedColumns) : ∃ value : Nat,
      (store.summed key).value column = value + total UsageStore.rowAggregate store.usageEvents key column ∧
      (store'.summed key).value column =
        value + movedTokens (store.archived rawCutoffMs maxRawEvents) key column +
          total UsageStore.rowAggregate (store.kept rawCutoffMs maxRawEvents) key column ∧
      (store.summed key).value column ≤ maxInteger ∧
      (store'.sums key column).Representable ∧ store'.sums key column ≠ .real := by
  obtain ⟨value, hcell, hcell', hfit, hfit'⟩ := rollup_prune hcontent hsummable hprune key hcolumn
  have hrows := (prune_eq_ok hprune).2
  have hsums : store.sums key column =
      .integer (value + total UsageStore.rowAggregate store.usageEvents key column : Nat) := by
    unfold UsageStore.sums
    rw [hcell]
    rfl
  have hsums' : store'.sums key column =
      .integer (value + movedTokens (store.archived rawCutoffMs maxRawEvents) key column +
        total UsageStore.rowAggregate (store.kept rawCutoffMs maxRawEvents) key column : Nat) := by
    unfold UsageStore.sums
    rw [hcell', hrows]
    rfl
  have hvalue : (store.summed key).value column =
      value + total UsageStore.rowAggregate store.usageEvents key column := by
    show (store.sums key column).count = _
    rw [hsums]
    rfl
  refine ⟨value, hvalue, ?_, by omega, ?_, ?_⟩
  · show (store'.sums key column).count = _
    rw [hsums']
    rfl
  · rw [hsums']
    exact fits_of_le hfit'
  · rw [hsums']
    exact nofun

/-- A prune makes the lifetimes of what it archives unknown, and changes no other sum. -/
theorem moved_prune (hcontent : Content store) (hsummable : store.Summable)
    (hprune : store.prune rawCutoffMs maxRawEvents dailyRollupCutoffMs = .ok store') (key : CandidateModel) :
    Moved (store.summed key) (store'.summed key)
      (total UsageStore.rowAggregate (store.archived rawCutoffMs maxRawEvents) key .cacheWrite5mTokens)
      (total UsageStore.rowAggregate (store.archived rawCutoffMs maxRawEvents) key .cacheWrite1hTokens) := by
  have hsummed (column : Column) (hcolumn : column ∈ summedColumns) := summed_prune hcontent hsummable hprune key hcolumn
  have hpruned := total_pruned store rawCutoffMs maxRawEvents key
  have hwrites := total_writes (store.archived rawCutoffMs maxRawEvents) key
  refine ⟨rfl, ?_, ?_, ?_, fun column hcolumn hne5m hne1h hneUnknown => ?_, fun hsamples => ?_, ?_⟩
  · obtain ⟨value, hvalue, hvalue', -⟩ := hsummed .cacheWrite5mTokens (by decide)
    have hsum := hpruned .cacheWrite5mTokens
    rw [hvalue, hvalue', movedTokens]
    omega
  · obtain ⟨value, hvalue, hvalue', -⟩ := hsummed .cacheWrite1hTokens (by decide)
    have hsum := hpruned .cacheWrite1hTokens
    rw [hvalue, hvalue', movedTokens]
    omega
  · obtain ⟨value, hvalue, hvalue', -⟩ := hsummed .unknownCacheWriteTokens (by decide)
    have hsum := hpruned .unknownCacheWriteTokens
    rw [hvalue, hvalue', movedTokens]
    omega
  · have hmem : column ∈ summedColumns := by
      revert column
      decide
    obtain ⟨value, hvalue, hvalue', -⟩ := hsummed column hmem
    have hsum := hpruned column
    have hmoved : movedTokens (store.archived rawCutoffMs maxRawEvents) key column =
        total UsageStore.rowAggregate (store.archived rawCutoffMs maxRawEvents) key column := by
      cases column <;> first | rfl | contradiction
    rw [hvalue, hvalue', hmoved]
    omega
  · obtain ⟨value, hvalue, -⟩ := hsummed .cacheWriteInputSamples (by decide)
    have hsum := hpruned .cacheWriteInputSamples
    have hzero := unsampled_writes (store.archived rawCutoffMs maxRawEvents) key (by omega)
    omega
  · obtain ⟨_, -, -, hinput, -⟩ := hsummed .inputTokens (by decide)
    obtain ⟨_, -, -, houtput, -⟩ := hsummed .outputTokens (by decide)
    exact ⟨hinput, houtput⟩

theorem candidates_prune (hprune : store.prune rawCutoffMs maxRawEvents dailyRollupCutoffMs = .ok store') :
    store'.candidates.Perm store.candidates := by
  obtain ⟨hrollups, hrows⟩ := prune_eq_ok hprune
  have hevents (key : CandidateModel) : (key ∈ store.usageEvents.map fun row => row.candidate) ↔
      (key ∈ (store.kept rawCutoffMs maxRawEvents).map fun row => row.candidate) ∨
        key ∈ (store.archived rawCutoffMs maxRawEvents).map fun row => row.candidate := by
    rw [((perm_filter_not (store.prunes rawCutoffMs maxRawEvents) store.usageEvents).map _).mem_iff, List.map_append,
      List.mem_append]
    rfl
  refine (List.perm_ext_iff_of_nodup (List.nodup_dedup _) (List.nodup_dedup _)).mpr fun key => ?_
  rw [List.mem_dedup, List.mem_dedup, List.mem_append, List.mem_append, List.mem_dedup, List.mem_dedup, hrows, hevents,
    (rollUp_eq_ok hrollups).2.1]
  tauto

theorem summable_prune (hcontent : Content store) (hsummable : store.Summable)
    (hprune : store.prune rawCutoffMs maxRawEvents dailyRollupCutoffMs = .ok store') : store'.Summable := by
  refine ⟨hsummable.rows.mono fun key column => ?_, fun key _ => ⟨fun column hcolumn => ?_, fun column hcolumn => ?_⟩⟩
  · have hsum := total_pruned store rawCutoffMs maxRawEvents key column
    rw [(prune_eq_ok hprune).2]
    omega
  · obtain ⟨_, -, -, -, hfits, -⟩ := summed_prune hcontent hsummable hprune key hcolumn
    exact hfits
  · have hmem : column ∈ summedColumns := by
      revert column
      decide
    obtain ⟨_, -, -, -, -, hinteger⟩ := summed_prune hcontent hsummable hprune key hmem
    exact hinteger

/-- Half a micro-dollar for each row and each of the six components. -/
structure WithinRounding (rows : Nat) (value value' : UsageValue) : Prop where
  priced : value'.pricedTokens = value.pricedTokens
  unpriced : value'.unpricedTokens = value.unpricedTokens
  microUsd : 2 * absDiff value'.microUsd value.microUsd ≤ 6 * rows

/-- Whatever the prices are, every candidate has the same equivalents in the second store as in the first. -/
def KeepsEquivalents (store store' : UsageStore) (archived : List UsageRow) : Prop :=
  ∀ prices before, store.apiEquivalents prices = .ok before →
    ∃ after, store'.apiEquivalents prices = .ok after ∧ ∀ hint,
      WithinRounding (archived.filter fun row => row.candidateHint = hint).length (valueOf before hint)
        (valueOf after hint)

/-- No write with a lifetime is archived, or those that stay fill the input that is not cached. -/
def LifetimesCovered (store : UsageStore) (archived kept : List UsageRow) (key : CandidateModel) : Prop :=
  Covered (uncachedInput (store.summed key)) (total UsageStore.rowAggregate kept key .cacheWrite5mTokens)
    (total UsageStore.rowAggregate kept key .cacheWrite1hTokens)
    (total UsageStore.rowAggregate archived key .cacheWrite5mTokens)
    (total UsageStore.rowAggregate archived key .cacheWrite1hTokens)

/-- The writes of a pruned store with a lifetime are those of the rows that stay. -/
theorem covered_prune (hcontent : Content store) (hsummable : store.Summable)
    (hprune : store.prune rawCutoffMs maxRawEvents dailyRollupCutoffMs = .ok store') (key : CandidateModel) :
    (store'.summed key).value .cacheWrite5mTokens =
        total UsageStore.rowAggregate (store.kept rawCutoffMs maxRawEvents) key .cacheWrite5mTokens ∧
      (store'.summed key).value .cacheWrite1hTokens =
        total UsageStore.rowAggregate (store.kept rawCutoffMs maxRawEvents) key .cacheWrite1hTokens := by
  have hvalue (column : Column) (hcolumn : column ∈ summedColumns) (hcell : ∀ cell, rollupCell cell column = .integer 0)
      (hmoved : movedTokens (store.archived rawCutoffMs maxRawEvents) key column = 0) :
      (store'.summed key).value column =
        total UsageStore.rowAggregate (store.kept rawCutoffMs maxRawEvents) key column := by
    obtain ⟨value, hbefore, -⟩ := rollup_prune hcontent hsummable hprune key hcolumn
    have hsums : store'.sums key column = .integer (0 + total UsageStore.rowAggregate store'.usageEvents key column) := by
      unfold UsageStore.sums
      rw [hcell]
      rfl
    show (store'.sums key column).count = _
    rw [hsums, (prune_eq_ok hprune).2, Int.zero_add]
    rfl
  exact ⟨hvalue _ (by decide) (fun _ => rfl) rfl, hvalue _ (by decide) (fun _ => rfl) rfl⟩

/-- With a price for one key only, the priced tokens of its candidate are its own. -/
theorem pricedTokens_single {key : CandidateModel} {keys : List CandidateModel} (hnd : keys.Nodup) (hmem : key ∈ keys)
    (value : CandidateModel → UsageValue) (hzero : ∀ other, other ≠ key → (value other).pricedTokens = 0)
    (hfit : (value key).pricedTokens ≤ 2 ^ 64 - 1) :
    (mergeAll ((keys.filter fun other => other.candidateId = key.candidateId).map value)).pricedTokens =
      (value key).pricedTokens := by
  have hcount : (keys.filter fun other => other.candidateId = key.candidateId).count key = 1 :=
    List.count_eq_one_of_mem (hnd.filter _) (List.mem_filter.mpr ⟨hmem, decide_eq_true rfl⟩)
  have hsum := List.sum_map_eq_nsmul_single key (fun other => (value other).pricedTokens)
    (l := keys.filter fun other => other.candidateId = key.candidateId) fun other hne _ => hzero other hne
  rw [hcount, one_nsmul] at hsum
  rw [pricedTokens_mergeAll, List.map_map]
  exact (congrArg (min · (2 ^ 64 - 1)) hsum).trans (Nat.min_eq_left hfit)

theorem estimate_prune (hcontent : Content store) (hsummable : store.Summable)
    (hprune : store.prune rawCutoffMs maxRawEvents dailyRollupCutoffMs = .ok store') {key : CandidateModel}
    (hcovered : ¬(trim key.model).isEmpty → LifetimesCovered store (store.archived rawCutoffMs maxRawEvents)
      (store.kept rawCutoffMs maxRawEvents) key) (prices : CandidateModel → Option TokenPrice) :
    estimate prices candidateUsage (store'.summed key) = estimate prices candidateUsage (store.summed key) := by
  have hmoved := moved_prune hcontent hsummable hprune key
  by_cases hblank : (trim key.model).isEmpty = true
  · -- Without a price only the total counts.
    have hnone (row : UsageAggregate) (hkey : row.key = key) :
        estimate prices candidateUsage row =
          ⟨0, 0, max (row.value .totalTokens) (satAdd 64 (row.value .inputTokens) (row.value .outputTokens))⟩ := by
      unfold estimate candidatePrice
      rw [hkey, if_pos hblank]
      rfl
    rw [hnone _ rfl, hnone _ rfl, hmoved.others .totalTokens (by decide) nofun nofun nofun,
      hmoved.others .inputTokens (by decide) nofun nofun nofun, hmoved.others .outputTokens (by decide) nofun nofun nofun]
  · obtain ⟨hkept5m, hkept1h⟩ := covered_prune hcontent hsummable hprune key
    refine hmoved.estimate_eq ?_
    rw [hkept5m, hkept1h]
    exact hcovered hblank

/-- Priced tokens that are the same under both quotes leave no archived write uncovered. -/
theorem covered_of_pricedTokens {row row' : UsageAggregate} {write5m write1h : Nat} (h : Moved row row' write5m write1h)
    (hpriced : ∀ lifetime5m : Bool,
      (estimateApiEquivalentWithTokenPrice (candidateUsage row') (some (if lifetime5m then
        { input := 0, cacheWrite5m := some 0, output := 0 } else
        { input := 0, cacheWrite1h := some 0, output := 0 }))).pricedTokens =
      (estimateApiEquivalentWithTokenPrice (candidateUsage row) (some (if lifetime5m then
        { input := 0, cacheWrite5m := some 0, output := 0 } else
        { input := 0, cacheWrite1h := some 0, output := 0 }))).pricedTokens) :
    Covered (uncachedInput row) (row'.value .cacheWrite5mTokens) (row'.value .cacheWrite1hTokens) write5m write1h := by
  by_cases hsamples : row.value .cacheWriteInputSamples = 0
  · obtain ⟨hwrite5m, hwrite1h⟩ := h.sampled hsamples
    exact ⟨.inl hwrite5m, .inl hwrite1h⟩
  · have hsamples' := h.others .cacheWriteInputSamples (by decide) nofun nofun nofun
    have hrange' : row'.value .inputTokens ≤ maxInteger ∧ row'.value .outputTokens ≤ maxInteger := by
      rw [h.others .inputTokens (by decide) nofun nofun nofun, h.others .outputTokens (by decide) nofun nofun nofun]
      exact h.inRange
    have hsame (lifetime5m : Bool) := (pricedTokens_candidateUsage (by omega) hrange' lifetime5m).symm.trans
      ((hpriced lifetime5m).trans (pricedTokens_candidateUsage (Nat.pos_of_ne_zero hsamples) h.inRange lifetime5m))
    have hsame5m := hsame true
    have hsame1h := hsame false
    have hwrite5m := h.lost5m
    have hwrite1h := h.lost1h
    have hunknown := h.unknown
    have hwrites : row'.value .cacheWrite5mTokens + row'.value .cacheWrite1hTokens +
        row'.value .unknownCacheWriteTokens = row.value .cacheWrite5mTokens + row.value .cacheWrite1hTokens +
        row.value .unknownCacheWriteTokens := by
      omega
    rw [h.rest_eq, h.others .outputTokens (by decide) nofun nofun nofun, hwrites, if_pos rfl, if_pos rfl] at hsame5m
    rw [h.rest_eq, h.others .outputTokens (by decide) nofun nofun nofun, hwrites, if_neg (by decide),
      if_neg (by decide)] at hsame1h
    have htaken5m := Nat.add_left_cancel (Nat.add_right_cancel hsame5m)
    have htaken1h := Nat.add_left_cancel (Nat.add_right_cancel hsame1h)
    rw [htaken5m] at htaken1h
    have hcovered5m : write5m = 0 ∨ uncachedInput row ≤ row'.value .cacheWrite5mTokens := by
      omega
    exact ⟨hcovered5m, by omega⟩

theorem prune_keeps_equivalents (hcontent : Content store)
    (hprune : store.prune rawCutoffMs maxRawEvents dailyRollupCutoffMs = .ok store') :
    KeepsEquivalents store store' (store.archived rawCutoffMs maxRawEvents) ↔
      (store.Summable → ∀ key, ¬(trim key.model).isEmpty →
        LifetimesCovered store (store.archived rawCutoffMs maxRawEvents) (store.kept rawCutoffMs maxRawEvents) key) := by
  have hkeyed' : Keyed store'.usageCandidateRollups := (rollUp_eq_ok (prune_eq_ok hprune).1).1 hcontent.keyed
  constructor
  · intro hkeeps hsummable key hmodel
    by_cases hkey : key ∈ store.candidates
    · have hmoved := moved_prune hcontent hsummable hprune key
      obtain ⟨hkept5m, hkept1h⟩ := covered_prune hcontent hsummable hprune key
      have hsummable' := summable_prune hcontent hsummable hprune
      have hcovered := covered_of_pricedTokens hmoved fun lifetime5m => ?_
      · rw [hkept5m, hkept1h] at hcovered
        exact hcovered
      -- Only this key has a price.
      let quote : TokenPrice := if lifetime5m then { input := 0, cacheWrite5m := some 0, output := 0 } else
        { input := 0, cacheWrite1h := some 0, output := 0 }
      let prices (other : CandidateModel) : Option TokenPrice := if other = key then some quote else none
      obtain ⟨before, hbefore, hvalue⟩ := UsageStore.valueOf_apiEquivalents hcontent.keyed hsummable prices
      obtain ⟨after, hafter, hvalue'⟩ := UsageStore.valueOf_apiEquivalents hkeyed' hsummable' prices
      obtain ⟨after', hafter', hwithin⟩ := hkeeps prices before hbefore
      obtain rfl : after = after' := Except.ok.inj (hafter.symm.trans hafter')
      have hpriced := (hwithin key.candidateId).priced
      have hquote (row : UsageAggregate) (hrow : row.key = key) :
          estimate prices candidateUsage row = estimateApiEquivalentWithTokenPrice (candidateUsage row) (some quote) := by
        unfold estimate candidatePrice
        rw [hrow, if_neg hmodel]
        exact congrArg _ (if_pos rfl)
      have hzero (rowAt : CandidateModel → UsageAggregate) (hrowAt : ∀ other, (rowAt other).key = other)
          (other : CandidateModel) (hne : other ≠ key) : (estimate prices candidateUsage (rowAt other)).pricedTokens = 0 := by
        have hnone : prices other = none := if_neg hne
        unfold estimate candidatePrice
        rw [hrowAt, hnone, ite_self]
        rfl
      have hfit (usage : ApiEquivalentUsage) :
          (estimateApiEquivalentWithTokenPrice usage (some quote)).pricedTokens ≤ 2 ^ 64 - 1 :=
        Nat.le_sub_one_of_lt (foldl_addComponent_lt (0, 0) ⟨by decide, by decide⟩ (usage.components quote)).1
      have hsingle (store : UsageStore) (hmem : key ∈ store.candidates) :
          (mergeAll ((store.candidates.filter fun other => other.candidateId = key.candidateId).map fun other =>
            estimate prices candidateUsage (store.summed other))).pricedTokens =
          (estimateApiEquivalentWithTokenPrice (candidateUsage (store.summed key)) (some quote)).pricedTokens := by
        have hnd : store.candidates.Nodup := List.nodup_dedup _
        rw [pricedTokens_single hnd hmem (fun other => estimate prices candidateUsage (store.summed other))
          (hzero store.summed fun _ => rfl) (by rw [hquote _ rfl]; exact hfit _), hquote _ rfl]
      rw [hvalue, hvalue', hsingle store hkey, hsingle store' ((candidates_prune hprune).mem_iff.mpr hkey)] at hpriced
      exact hpriced
    · -- Nothing of the key is archived.
      have hrows (column : Column) :
          total UsageStore.rowAggregate (store.archived rawCutoffMs maxRawEvents) key column = 0 := by
        refine total_of_absent (fun hmem => hkey ?_) column
        obtain ⟨row, hrow, rfl⟩ := List.mem_map.mp hmem
        refine List.mem_dedup.mpr (List.mem_append_right _ (List.mem_dedup.mpr ?_))
        exact List.mem_map_of_mem (List.mem_filter.mp hrow).1
      exact ⟨.inl (hrows _), .inl (hrows _)⟩
  · intro hcovered prices before hbefore
    obtain ⟨rows, hrows, -⟩ := bind_eq_ok.mp hbefore
    obtain ⟨-, hsummable⟩ := (UsageStore.equivalentRows_eq_ok hcontent.keyed).mp hrows
    obtain ⟨before', hbefore', hvalue⟩ := UsageStore.valueOf_apiEquivalents hcontent.keyed hsummable prices
    obtain rfl : before = before' := Except.ok.inj (hbefore.symm.trans hbefore')
    obtain ⟨after, hafter, hvalue'⟩ := UsageStore.valueOf_apiEquivalents hkeyed'
      (summable_prune hcontent hsummable hprune) prices
    refine ⟨after, hafter, fun hint => ?_⟩
    have hsame : valueOf after hint = valueOf before hint := by
      rw [hvalue, hvalue', mergeAll_perm (((candidates_prune hprune).filter _).map _)]
      exact congrArg mergeAll (List.map_congr_left fun key _ =>
        estimate_prune hcontent hsummable hprune (hcovered hsummable key) prices)
    rw [hsame]
    exact ⟨rfl, rfl, by simp [absDiff]⟩

end

/-- The store after one event, and after a prune of its row. -/
def recorded (event : UsageEvent) : UsageStore := (UsageStore.fresh []).record id event

def pruned (event : UsageEvent) : UsageStore :=
  match (recorded event).prune 1 0 0 with
  | .ok store => store
  | .error _ => recorded event

theorem content_recorded (event : UsageEvent) (h : (recorded event).usageCandidateRollups = []) :
    Content (recorded event) := by
  refine ⟨?_, ?_⟩
  · rw [h]
    exact List.nodup_nil
  · rw [h]
    exact fun row hrow => nomatch hrow

theorem prune_recorded {event : UsageEvent} (h : ((recorded event).prune 1 0 0).toBool = true) :
    (recorded event).prune 1 0 0 = .ok (pruned event) := by
  unfold pruned
  cases hprune : (recorded event).prune 1 0 0 with
  | ok store => rfl
  | error e =>
    rw [hprune] at h
    exact nomatch h

theorem prune_keeps_equivalents_sample :
    KeepsEquivalents (recorded sampleEvent) (pruned sampleEvent) ((recorded sampleEvent).archived 1 0) := by
  refine (prune_keeps_equivalents (content_recorded sampleEvent rfl) (prune_recorded (by decide))).mpr fun _ key _ => ?_
  -- The request writes nothing into a cache.
  have hzero (column : Column) (hcolumn : (UsageEvent.entry sampleEvent id).column column = some 0) :
      total UsageStore.rowAggregate ((recorded sampleEvent).archived 1 0) key column = 0 := by
    show total UsageStore.rowAggregate [⟨sampleEvent.entry id, 1⟩] key column = 0
    have hvalue : (UsageStore.rowAggregate ⟨sampleEvent.entry id, 1⟩).value column = 0 := by
      show ((sampleEvent.entry id).column column).getD 0 = 0
      rw [hcolumn]
      rfl
    rw [total_cons, total_nil, hvalue, ite_self]
  exact ⟨.inl (hzero _ rfl), .inl (hzero _ rfl)⟩

theorem neZero_counter : NeZero (2 ^ 63) := ⟨by decide⟩

attribute [local instance] neZero_counter

/-- A request that writes into the cache for five minutes. -/
def cachedEvent : UsageEvent :=
  { sampleEvent with
    inputTokens := some 100
    cacheWriteInputTokens := some 40
    cacheWriteTtl := some .fiveMinutes
    outputTokens := some 0 }

/-- Its cache writes have a price until they are archived. -/
theorem prune_loses_lifetimes :
    ¬KeepsEquivalents (recorded cachedEvent) (pruned cachedEvent) ((recorded cachedEvent).archived 1 0) := by
  intro h
  have hbefore : (recorded cachedEvent).apiEquivalents
      (fun _ => some { input := 1000000, cacheWrite5m := some 2000000, output := 1000000 }) =
        .ok [("source", ⟨140, 100, 0⟩)] := by
    decide
  have hpruned : (pruned cachedEvent).apiEquivalents
      (fun _ => some { input := 1000000, cacheWrite5m := some 2000000, output := 1000000 }) =
        .ok [("source", ⟨60, 60, 40⟩)] := by
    decide
  obtain ⟨after, hafter, hwithin⟩ := h _ _ hbefore
  obtain rfl := Except.ok.inj (hpruned.symm.trans hafter)
  exact absurd (hwithin "source").priced (by decide)

end Zenith.Server
