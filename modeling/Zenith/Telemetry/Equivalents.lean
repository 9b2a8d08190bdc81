import Mathlib
import Zenith.Lib.Text
import Zenith.Telemetry.Conservation
import Zenith.Usage.Pricing

/-!
# The page and the candidates

The unfiltered page of all time and the list of the candidates both price the rollups, by two queries that
read an absent counter differently: the page leaves out the input of a rollup without input samples, the list
takes it as zero tokens and cuts the cache writes down to it. `page_agrees` has the condition under which the
totals of the page are the sums of the list all the same.
-/

namespace Zenith.Telemetry

open Zenith.Gateway Zenith.Profiles Zenith.Rollups Zenith.Rows Zenith.Runs Zenith.Tables Zenith.Text Zenith.Usage

/-! ## Reading a rollup -/

/-- The place of a column in the queries of the prices. -/
def Column.index : Column → Nat
  | .inputTokens => 3
  | .cachedInputTokens => 4
  | .cacheWriteInputTokens => 5
  | .cacheWrite5mTokens => 6
  | .cacheWrite1hTokens => 7
  | .unknownCacheWriteTokens => 8
  | .outputTokens => 9
  | .totalTokens => 10
  | .inputSamples => 11
  | .cachedInputSamples => 12
  | .cacheWriteInputSamples => 13
  | .outputSamples => 14
  | .totalSamples => 15

def Column.name : Column → String
  | .inputTokens => "input_tokens"
  | .inputSamples => "input_samples"
  | .cachedInputTokens => "cached_input_tokens"
  | .cachedInputSamples => "cached_input_samples"
  | .cacheWriteInputTokens => "cache_write_input_tokens"
  | .cacheWriteInputSamples => "cache_write_input_samples"
  | .cacheWrite5mTokens => "cache_write_5m_tokens"
  | .cacheWrite1hTokens => "cache_write_1h_tokens"
  | .unknownCacheWriteTokens => "unknown_cache_write_tokens"
  | .outputTokens => "output_tokens"
  | .outputSamples => "output_samples"
  | .totalTokens => "total_tokens"
  | .totalSamples => "total_samples"

def invalidColumnType (column : Column) : LocalPoolError :=
  ⟨.io, s!"local database error: Invalid column type Real at index: {column.index}, name: {column.name}"⟩

/-- The columns that the list of the candidates reads, in order. -/
def candidateColumns : List Column :=
  [.inputTokens, .cachedInputTokens, .cacheWrite5mTokens, .cacheWrite1hTokens, .unknownCacheWriteTokens,
    .outputTokens, .totalTokens, .inputSamples, .cachedInputSamples, .cacheWriteInputSamples]

/-- The columns that the page reads, in order. -/
def pageColumns : List Column := candidateColumns ++ [.outputSamples, .totalSamples]

/-! ## Prices -/

/-- `candidate_price`. The catalog and its context are `prices`; a blank model has none. -/
def candidatePrice (prices : CandidateModel → Option TokenPrice) (candidate : CandidateModel) : Option TokenPrice :=
  if (trim candidate.model).isEmpty then none else prices candidate

/-- `usage_pricing_usage_from_row`. A `NULL` sum, which stands for zero here, is not read. -/
def usagePricingUsageFromRow (row : UsageAggregate) : ApiEquivalentUsage where
  inputTokens := if row.value .inputSamples > 0 then some (row.value .inputTokens) else none
  cachedInputTokens :=
    if row.value .inputSamples > 0 ∧ row.value .cachedInputSamples = row.value .inputSamples then
      some (row.value .cachedInputTokens)
    else none
  cacheWrite5mTokens := if row.value .cacheWriteInputSamples > 0 then some (row.value .cacheWrite5mTokens) else none
  cacheWrite1hTokens := if row.value .cacheWriteInputSamples > 0 then some (row.value .cacheWrite1hTokens) else none
  unknownCacheWriteTokens :=
    if row.value .cacheWriteInputSamples > 0 then some (row.value .unknownCacheWriteTokens) else none
  outputTokens := if row.value .outputSamples > 0 then some (row.value .outputTokens) else none
  totalTokens := if row.value .totalSamples > 0 then some (row.value .totalTokens) else none

/-- The usage of a rollup in the list of the candidates. -/
def candidateUsage (row : UsageAggregate) : ApiEquivalentUsage where
  inputTokens := some (row.value .inputTokens)
  cachedInputTokens :=
    if row.value .inputSamples > 0 ∧ row.value .cachedInputSamples = row.value .inputSamples then
      some (row.value .cachedInputTokens)
    else none
  cacheWrite5mTokens := if row.value .cacheWriteInputSamples > 0 then some (row.value .cacheWrite5mTokens) else none
  cacheWrite1hTokens := if row.value .cacheWriteInputSamples > 0 then some (row.value .cacheWrite1hTokens) else none
  unknownCacheWriteTokens :=
    if row.value .cacheWriteInputSamples > 0 then some (row.value .unknownCacheWriteTokens) else none
  outputTokens := some (row.value .outputTokens)
  totalTokens := some (row.value .totalTokens)

def estimate (prices : CandidateModel → Option TokenPrice) (usage : UsageAggregate → ApiEquivalentUsage)
    (row : UsageAggregate) : UsageValue :=
  estimateApiEquivalentWithTokenPrice (usage row) (candidatePrice prices row.key)

section
variable (db : TelemetryDb) (prices : CandidateModel → Option TokenPrice)

/-- The rows of the query of the page: the rollups, and the groups of the rows that are not rolled up. -/
def pageRows : Except LocalPoolError (List UsageAggregate) := do
  let rollups ← db.usageCandidateRollups.mapM (Row.read invalidColumnType pageColumns)
  let unflagged ← (groupRows RequestLog.candidate (db.requestLogs.filter fun row => !row.usageAggregateRecorded)).mapM
    (aggregateGroup integerOverflow RequestLog.column)
  return rollups ++ unflagged

/-- `usage_model_equivalents` for the unfiltered page of all time. -/
def usageModelEquivalents : Except LocalPoolError (List (String × UsageValue)) := do
  let rows ← pageRows db
  return (rows.map fun row => (row.key.model, estimate prices usagePricingUsageFromRow row)).foldl mergeEntry []

/-- A group of the page takes the value of its model. -/
def takeGroup (totals : List (String × UsageValue) × UsageValue) (model : String) :
    List (String × UsageValue) × UsageValue :=
  (totals.1.filter fun entry => entry.1 ≠ model,
    totals.2.merge ((lookupKey Prod.fst model totals.1).elim {} Prod.snd))

/-- The value in the totals of the page, which lists the models of the rows or does not. -/
def pageEquivalent (includesModels : Bool) : Except LocalPoolError UsageValue := do
  let equivalents ← usageModelEquivalents db prices
  let models := if includesModels then
    (groupRows (fun row : RequestLog => row.candidate.model) db.requestLogs).map Prod.fst else []
  let totals := models.foldl takeGroup (equivalents, {})
  return (totals.1.map Prod.snd).foldl UsageValue.merge totals.2

structure UsageEquivalents where
  accounts : List (String × UsageValue)
  sources : List (String × UsageValue)

def UsageEquivalents.add (equivalents : UsageEquivalents) (row : UsageAggregate) : UsageEquivalents :=
  let entry := (row.key.candidateId, estimate prices candidateUsage row)
  match row.key.kind with
  | .account => { equivalents with accounts := mergeEntry equivalents.accounts entry }
  | .source => { equivalents with sources := mergeEntry equivalents.sources entry }

/-- `api_equivalents_with_resolver`. -/
def apiEquivalents : Except LocalPoolError UsageEquivalents := do
  let rows ← db.usageCandidateRollups.mapM (Row.read invalidColumnType candidateColumns)
  return rows.foldl (UsageEquivalents.add prices) ⟨[], []⟩

/-- The sum over the accounts and the sources. -/
def UsageEquivalents.total (equivalents : UsageEquivalents) : UsageValue :=
  mergeAll (equivalents.accounts.map Prod.snd ++ equivalents.sources.map Prod.snd)

end

/-! ## Two sums of the rows -/

theorem nodup_foldl_mergeEntry {κ : Type} [DecidableEq κ] {table : List (κ × UsageValue)}
    (h : (table.map Prod.fst).Nodup) (entries : List (κ × UsageValue)) :
    ((entries.foldl mergeEntry table).map Prod.fst).Nodup := by
  induction entries generalizing table with
  | nil => exact h
  | cons entry entries ih => exact ih (nodup_upsert (fun _ hkey => hkey) h)

theorem merge_zero {value other : UsageValue} : (value.merge other).merge {} = value.merge other := by
  simp only [UsageValue.merge, satAdd, UsageValue.mk.injEq]
  omega

variable {totals : List (String × UsageValue) × UsageValue}

/-- A group takes its value out of the map and adds it. -/
theorem takeGroup_step (hnd : (totals.1.map Prod.fst).Nodup)
    (hzero : totals.2.merge {} = totals.2) (model : String) :
    (((takeGroup totals model).1.map Prod.fst).Nodup ∧
      (takeGroup totals model).2.merge {} = (takeGroup totals model).2) ∧
    ((takeGroup totals model).1.map Prod.snd).foldl UsageValue.merge (takeGroup totals model).2 =
      (totals.1.map Prod.snd).foldl UsageValue.merge totals.2 := by
  refine ⟨⟨hnd.sublist (List.filter_sublist.map _), merge_zero⟩, ?_⟩
  rw [takeGroup]
  cases hmodel : lookupKey Prod.fst model totals.1 with
  | none =>
    have hall : (totals.1.filter fun entry => entry.1 ≠ model) = totals.1 :=
      List.filter_eq_self.mpr fun entry hentry => decide_eq_true fun hkey =>
        lookupKey_eq_none.mp hmodel (hkey ▸ List.mem_map_of_mem hentry)
    rw [hall]
    show _ = _
    rw [Option.elim_none, hzero]
  | some entry =>
    obtain ⟨hmem, rfl⟩ := lookupKey_eq_some hmodel
    have hperm := (perm_cons_filter hnd hmem).map Prod.snd
    rw [Option.elim_some]
    refine (Eq.symm ?_)
    exact hperm.foldl_eq' (fun a _ b _ start => UsageValue.merge_right_comm start a b) totals.2

theorem foldl_takeGroup (models : List String)
    (hnd : (totals.1.map Prod.fst).Nodup) (hzero : totals.2.merge {} = totals.2) :
    ((models.foldl takeGroup totals).1.map Prod.snd).foldl UsageValue.merge (models.foldl takeGroup totals).2 =
      (totals.1.map Prod.snd).foldl UsageValue.merge totals.2 := by
  induction models generalizing totals with
  | nil => rfl
  | cons model models ih =>
    obtain ⟨⟨hnd', hzero'⟩, hsum⟩ := takeGroup_step hnd hzero model
    rw [List.foldl_cons, ih hnd' hzero', hsum]

section
variable {db : TelemetryDb} {prices : CandidateModel → Option TokenPrice}

/-- The page adds up its rows, with or without the groups. -/
theorem pageEquivalent_eq (includesModels : Bool) : pageEquivalent db prices includesModels =
    (pageRows db).map fun rows => mergeAll (rows.map (estimate prices usagePricingUsageFromRow)) := by
  rw [pageEquivalent, usageModelEquivalents]
  cases hrows : pageRows db with
  | error e => rfl
  | ok rows =>
    show Except.ok _ = Except.ok _
    refine congrArg Except.ok ?_
    dsimp only
    rw [foldl_takeGroup]
    · refine (mergeAll_entries _).trans ?_
      rw [List.map_map]
      rfl
    · refine nodup_foldl_mergeEntry ?_ _
      exact List.nodup_nil
    · rfl

theorem total_add (equivalents : UsageEquivalents) (row : UsageAggregate) :
    (equivalents.add prices row).total = equivalents.total.merge (estimate prices candidateUsage row) := by
  rw [UsageEquivalents.add]
  cases row.key.kind with
  | account =>
    rw [UsageEquivalents.total, UsageEquivalents.total, mergeAll, mergeAll, List.foldl_append, List.foldl_append]
    dsimp only
    rw [foldl_mergeEntry, UsageValue.foldl_merge_comm]
  | source =>
    rw [UsageEquivalents.total, UsageEquivalents.total, mergeAll, mergeAll, List.foldl_append, List.foldl_append]
    dsimp only
    rw [foldl_mergeEntry]

/-- The list of the candidates adds up its rows. -/
theorem apiEquivalents_eq (db : TelemetryDb) (prices : CandidateModel → Option TokenPrice) :
    (apiEquivalents db prices).map UsageEquivalents.total =
    (db.usageCandidateRollups.mapM (Row.read invalidColumnType candidateColumns)).map fun rows =>
      mergeAll (rows.map (estimate prices candidateUsage)) := by
  have hfold (rows : List UsageAggregate) (equivalents : UsageEquivalents) :
      (rows.foldl (UsageEquivalents.add prices) equivalents).total =
        (rows.map (estimate prices candidateUsage)).foldl UsageValue.merge equivalents.total := by
    induction rows generalizing equivalents with
    | nil => rfl
    | cons row rows ih => rw [List.foldl_cons, ih, total_add, List.map_cons, List.foldl_cons]
  rw [apiEquivalents]
  cases db.usageCandidateRollups.mapM (Row.read invalidColumnType candidateColumns) with
  | error e => rfl
  | ok rows => exact congrArg Except.ok (hfold rows ⟨[], []⟩)

/-! ## One row -/

/-- The cache writes of a row without input samples are priced in neither query, and are part of its total. -/
def WritesCovered (row : UsageAggregate) : Prop :=
  row.value .inputSamples = 0 →
    ((trim row.key.model).isEmpty ∨ (row.value .cacheWrite5mTokens = 0 ∧ row.value .cacheWrite1hTokens = 0)) ∧
    (row.value .cacheWrite5mTokens + row.value .cacheWrite1hTokens + row.value .unknownCacheWriteTokens = 0 ∨
      row.value .cacheWrite5mTokens + row.value .cacheWrite1hTokens + row.value .unknownCacheWriteTokens +
        row.value .outputTokens ≤ row.value .totalTokens)

/-- A counter without samples is zero. -/
structure Sampled (row : UsageAggregate) : Prop where
  input : row.value .inputSamples = 0 → row.value .inputTokens = 0
  output : row.value .outputSamples = 0 → row.value .outputTokens = 0
  total : row.value .totalSamples = 0 → row.value .totalTokens = 0

theorem getD_if_pos {samples tokens : Nat} (h : samples = 0 → tokens = 0) :
    (if samples > 0 then some tokens else none).getD 0 = tokens := by
  by_cases hpos : samples > 0
  · rw [if_pos hpos]
    rfl
  · rw [if_neg hpos, h (by omega)]
    rfl

variable {row : UsageAggregate}

/-- The writes of a row without input samples, as the page splits them. -/
theorem split_page (hinput : row.value .inputSamples = 0) :
    ∃ write5m write1h unknown, (usagePricingUsageFromRow row).split = ⟨none, 0, write5m, write1h, unknown⟩ ∧
      write5m ≤ row.value .cacheWrite5mTokens ∧ write1h ≤ row.value .cacheWrite1hTokens ∧
      unknown ≤ row.value .unknownCacheWriteTokens := by
  have hwrites (tokens : Nat) (samples : Nat) : ∃ counted,
      ((if samples > 0 then some tokens else none).map fun value => min value ((none : Option Nat).getD value)).getD 0 =
        counted ∧ counted ≤ tokens := by
    refine ⟨_, rfl, ?_⟩
    split
    · simp
    · exact Nat.zero_le _
  obtain ⟨write5m, hwrite5m, hle5m⟩ := hwrites (row.value .cacheWrite5mTokens) (row.value .cacheWriteInputSamples)
  obtain ⟨write1h, hwrite1h, hle1h⟩ := hwrites (row.value .cacheWrite1hTokens) (row.value .cacheWriteInputSamples)
  obtain ⟨unknown, hunknown, hle⟩ := hwrites (row.value .unknownCacheWriteTokens) (row.value .cacheWriteInputSamples)
  refine ⟨write5m, write1h, unknown, ?_, hle5m, hle1h, hle⟩
  rw [← hwrite5m, ← hwrite1h, ← hunknown]
  simp only [ApiEquivalentUsage.split, usagePricingUsageFromRow, hinput, gt_iff_lt, Nat.lt_irrefl, if_false, false_and]
  rfl

/-- The list cuts the writes of a row without input down to nothing. -/
theorem split_candidate (hinput : row.value .inputTokens = 0) :
    (candidateUsage row).split = ⟨some 0, 0, 0, 0, 0⟩ := by
  simp only [ApiEquivalentUsage.split, candidateUsage, hinput, Nat.min_zero, Nat.sub_self]

theorem estimate_eq (hsampled : Sampled row) (hcovered : WritesCovered row) :
    estimate prices usagePricingUsageFromRow row = estimate prices candidateUsage row := by
  have houtput : (usagePricingUsageFromRow row).outputTokens.getD 0 = row.value .outputTokens :=
    getD_if_pos hsampled.output
  have htotal : (usagePricingUsageFromRow row).totalTokens.getD 0 = row.value .totalTokens :=
    getD_if_pos hsampled.total
  rw [estimate, estimate]
  by_cases hinput : row.value .inputSamples = 0
  · obtain ⟨hpriced, hmeasured⟩ := hcovered hinput
    obtain ⟨write5m, write1h, unknown, hpage, hle5m, hle1h, hleUnknown⟩ := split_page hinput
    have hcandidate := split_candidate (hsampled.input hinput)
    have hnone : (usagePricingUsageFromRow row).inputTokens = none :=
      if_neg (by rw [hinput]; exact Nat.lt_irrefl 0)
    have hsome : (candidateUsage row).inputTokens = some 0 := congrArg some (hsampled.input hinput)
    refine estimate_congr_sums ?_ fun price hprice => ?_
    · have hpageTokens : (usagePricingUsageFromRow row).measuredTokens =
          satAdd 64 (satAdd 64 (satAdd 64 (satAdd 64 0 write5m) write1h) unknown) (row.value .outputTokens) := by
        rw [ApiEquivalentUsage.measuredTokens, hpage, hnone, houtput]
        rfl
      have hcandidateTokens : (candidateUsage row).measuredTokens = satAdd 64 0 (row.value .outputTokens) := by
        rw [ApiEquivalentUsage.measuredTokens, hsome]
        rfl
      have htotals : (candidateUsage row).totalTokens.getD 0 = row.value .totalTokens := rfl
      rw [htotal, htotals, hpageTokens, hcandidateTokens]
      simp only [satAdd]
      omega
    · -- Where there is a price, the model is not blank.
      have hmodel : ¬(trim row.key.model).isEmpty := by
        intro hblank
        rw [candidatePrice, if_pos hblank] at hprice
        cases hprice
      obtain ⟨hzero5m, hzero1h⟩ := hpriced.resolve_left hmodel
      rw [foldl_components_of_zero, foldl_components_of_zero, houtput]
      · rfl
      · rw [hcandidate]
        rfl
      · rw [hcandidate]
      · rw [hcandidate]
      · rw [hcandidate]
      · rw [hpage]
        rfl
      · rw [hpage]
      · rw [hpage]
        exact Nat.eq_zero_of_le_zero (hzero5m ▸ hle5m)
      · rw [hpage]
        exact Nat.eq_zero_of_le_zero (hzero1h ▸ hle1h)
  · -- The two usages differ in how they say that there is no output and no total.
    have hsame : (usagePricingUsageFromRow row).inputTokens = (candidateUsage row).inputTokens :=
      if_pos (Nat.pos_of_ne_zero hinput)
    refine estimate_congr ?_ hsame houtput htotal _
    rw [ApiEquivalentUsage.split, ApiEquivalentUsage.split, hsame]
    rfl

/-! ## Reachable databases -/

/-- What every step keeps, also where sums leave the 64 bits and requests are recorded again. -/
structure Reached (t : Tracked) : Prop where
  indexed : Indexed t.db
  rolled : t.Rolled True
  measured : ∀ contribution ∈ t.archived, ∃ row : RequestLog, contribution = row.contribution
  flagged : ∀ row ∈ t.db.requestLogs, row.usageAggregateRecorded = true

variable {t : Tracked}

theorem opened_reached (h : Opened True t) : Reached t where
  indexed := opened_indexed h
  rolled := opened_rolled h
  flagged := (opened_accounted h).flagged
  measured contribution hmem := by
    cases h with
    | fresh => exact nomatch hmem
    | migrated =>
      obtain ⟨row, -, rfl⟩ := List.mem_map.mp hmem
      exact ⟨row, rfl⟩

theorem measured_append {archived : List Contribution} {rows : List RequestLog} {now : Nat}
    (h : ∀ contribution ∈ archived, ∃ row : RequestLog, contribution = row.contribution) :
    ∀ contribution ∈ archived ++ archivedBy rows now, ∃ row : RequestLog, contribution = row.contribution := by
  intro contribution hmem
  rcases List.mem_append.mp hmem with hmem | hmem
  · exact h contribution hmem
  · obtain ⟨row, -, rfl⟩ := List.mem_map.mp hmem
    exact ⟨row, rfl⟩

theorem flagged_archiveUsage {db' : TelemetryDb} {now : Nat} (harchive : db.archiveUsage now = .ok db')
    (h : ∀ row ∈ db.requestLogs, row.usageAggregateRecorded = true) :
    ∀ row ∈ db'.requestLogs, row.usageAggregateRecorded = true := by
  obtain ⟨rollups, -, rfl⟩ := archiveUsage_eq_ok harchive
  exact fun row hrow => h row (List.mem_filter.mp hrow).1

theorem measured_step (h : Reached t) (op : Operation) :
    (∀ contribution ∈ (t.step op).archived, ∃ row : RequestLog, contribution = row.contribution) ∧
    ∀ row ∈ (t.step op).db.requestLogs, row.usageAggregateRecorded = true := by
  cases op with
  | record event now =>
    have hinserted := flagged_insertUsage event now h.indexed h.flagged
    rcases record_outcome t event now with ⟨hdb, harchived, -⟩ | ⟨-, -, db', harchive, hdb, harchived⟩ |
      ⟨-, -, hrows, -, harchived⟩
    · rw [hdb, harchived]
      exact ⟨h.measured, h.flagged⟩
    · have hrest : ∀ row ∈ db'.requestLogs, row.usageAggregateRecorded = true :=
        flagged_archiveUsage harchive hinserted
      rw [hdb, harchived]
      exact ⟨measured_append h.measured, hrest⟩
    · rw [hrows, harchived]
      exact ⟨h.measured, hinserted⟩
  | clear => exact ⟨fun contribution hmem => (nomatch hmem), fun row hrow => nomatch hrow⟩
  | purge accountIds =>
    have hpurged (t : Tracked)
        (h : (∀ contribution ∈ t.archived, ∃ row : RequestLog, contribution = row.contribution) ∧
          ∀ row ∈ t.db.requestLogs, row.usageAggregateRecorded = true) :
        (∀ contribution ∈ (accountIds.foldl Tracked.purgeAccount t).archived,
          ∃ row : RequestLog, contribution = row.contribution) ∧
        ∀ row ∈ (accountIds.foldl Tracked.purgeAccount t).db.requestLogs, row.usageAggregateRecorded = true := by
      induction accountIds generalizing t with
      | nil => exact h
      | cons accountId accountIds ih =>
        exact ih _ ⟨fun contribution hmem => h.1 contribution (List.mem_filter.mp hmem).1,
          fun row hrow => h.2 row (List.mem_filter.mp hrow).1⟩
    obtain ⟨hrows, -, harchived, -⟩ := purge_tracked t accountIds
    rw [hrows, harchived]
    exact hpurged t ⟨h.measured, h.flagged⟩
  | page =>
    have hrows : (t.step .page).db.requestLogs = t.db.requestLogs := (page_tables t.db).1
    rw [hrows]
    exact ⟨h.measured, h.flagged⟩
  | reopen now =>
    rcases reopen_outcome t now with ⟨e, -, hsame⟩ | ⟨db', harchive, hreopen⟩
    · rw [hsame]
      exact ⟨h.measured, h.flagged⟩
    · have hrest : ∀ row ∈ db'.requestLogs, row.usageAggregateRecorded = true :=
        flagged_archiveUsage harchive h.flagged
      rw [hreopen]
      exact ⟨measured_append h.measured, hrest⟩

theorem reached_run (h : Opened True t) (ops : List Operation) : Reached (run Tracked.step t ops) := by
  refine run_invariant_of_forall (fun t op ht => ?_) (opened_reached h) ops
  obtain ⟨hmeasured, hflagged⟩ := measured_step ht op
  exact ⟨indexed_step ht.indexed op, rolled_step ht.indexed ht.rolled (.inl trivial), hmeasured, hflagged⟩

theorem tokens_of_sampleOf {value : Option Stored} (h : sampleOf value = 0) : tokensOf value = 0 := by
  cases value with
  | none => rfl
  | some value => exact nomatch h

theorem sampled_of_reached (h : Reached t) {row : Rollup} (hrow : row ∈ t.db.usageCandidateRollups)
    (hread : ∀ column ∈ pageColumns, row.cell column ≠ .real) : Sampled row.aggregate := by
  have hcount {column : Column} (hcolumn : column ∈ pageColumns) :
      row.aggregate.value column = total Contribution.aggregate
        (Telemetry.flagged t.db.requestLogs ++ t.archived) row.key column := by
    have hholds := h.rolled.holds row.key column
    rw [cellAt_of_mem h.rolled.keyed hrow] at hholds
    show (row.cell column).count = _
    rw [hholds.resolve_right fun hreal => hread column hcolumn hreal.2]
    rfl
  have hmeasured : ∀ contribution ∈ Telemetry.flagged t.db.requestLogs ++ t.archived,
      ∃ row : RequestLog, contribution = row.contribution := by
    intro contribution hmem
    rcases List.mem_append.mp hmem with hmem | hmem
    · obtain ⟨row, -, rfl⟩ := List.mem_map.mp hmem
      exact ⟨row, rfl⟩
    · exact h.measured contribution hmem
  have hsampled {samples tokens : Column} (hsamples : samples ∈ pageColumns) (htokens : tokens ∈ pageColumns)
      (hrow : ∀ row : RequestLog, (UsageAggregate.fromRow row).value samples = 0 →
        (UsageAggregate.fromRow row).value tokens = 0) (hzero : row.aggregate.value samples = 0) :
      row.aggregate.value tokens = 0 := by
    rw [hcount hsamples] at hzero
    rw [hcount htokens]
    refine total_eq_zero (fun contribution hmem => ?_) hzero
    obtain ⟨row, rfl⟩ := hmeasured contribution hmem
    exact hrow row
  exact ⟨hsampled (by decide) (by decide) fun row hzero => tokens_of_sampleOf hzero,
    hsampled (by decide) (by decide) fun row hzero => tokens_of_sampleOf hzero,
    hsampled (by decide) (by decide) fun row hzero => tokens_of_sampleOf hzero⟩

end

/-- Whatever the prices are, the value in the totals of a page that can be read is the sum of the values of
the candidates. -/
def PageAgrees (db : TelemetryDb) : Prop :=
  ∀ prices includesModels totals, pageEquivalent db prices includesModels = .ok totals →
    ∃ equivalents, apiEquivalents db prices = .ok equivalents ∧ equivalents.total = totals

theorem page_agrees {t : Tracked} (hopen : Opened True t) (ops : List Operation)
    (hcovered : ∀ row ∈ (run Tracked.step t ops).db.usageCandidateRollups, WritesCovered row.aggregate) :
    PageAgrees (run Tracked.step t ops).db := by
  have hreached := reached_run hopen ops
  generalize run Tracked.step t ops = t at hreached hcovered
  intro prices includesModels totals htotals
  -- All rows are rolled up, so the page reads the rollups alone.
  have hunflagged : (t.db.requestLogs.filter fun row => !row.usageAggregateRecorded) = [] :=
    List.filter_eq_nil_iff.mpr fun row hrow => by simp [hreached.flagged row hrow]
  have hrows : pageRows t.db = t.db.usageCandidateRollups.mapM (Row.read invalidColumnType pageColumns) := by
    rw [pageRows, hunflagged]
    cases t.db.usageCandidateRollups.mapM (Row.read invalidColumnType pageColumns) with
    | error e => rfl
    | ok rows => exact congrArg Except.ok (List.append_nil rows)
  rw [pageEquivalent_eq, hrows] at htotals
  cases hread : t.db.usageCandidateRollups.mapM (Row.read invalidColumnType pageColumns) with
  | error e =>
    rw [hread] at htotals
    exact nomatch htotals
  | ok rows =>
    rw [hread] at htotals
    obtain rfl := Except.ok.inj htotals
    obtain ⟨rfl, hcells⟩ := mapM_read.mp hread
    have hcandidates : t.db.usageCandidateRollups.mapM (Row.read invalidColumnType candidateColumns) =
        .ok (t.db.usageCandidateRollups.map Row.aggregate) :=
      mapM_read.mpr ⟨rfl, fun row hrow column hcolumn => hcells row hrow column (List.mem_append_left _ hcolumn)⟩
    have hsum := apiEquivalents_eq t.db prices
    rw [hcandidates] at hsum
    cases hequivalents : apiEquivalents t.db prices with
    | error e =>
      rw [hequivalents] at hsum
      exact nomatch hsum
    | ok equivalents =>
      rw [hequivalents] at hsum
      refine ⟨equivalents, rfl, (Except.ok.inj hsum).trans (congrArg mergeAll (List.map_congr_left ?_))⟩
      intro aggregate haggregate
      obtain ⟨row, hrow, rfl⟩ := List.mem_map.mp haggregate
      exact (estimate_eq (sampled_of_reached hreached hrow (hcells row hrow)) (hcovered row hrow)).symm

theorem page_agrees_sample : PageAgrees (run Tracked.step ⟨.fresh, [], []⟩ [.record sampleEvent 0]).db := by
  refine page_agrees .fresh _ fun row hrow => ?_
  obtain rfl := List.mem_singleton.mp hrow
  intro hsamples
  exact nomatch hsamples

/-- A request whose upstream reports cache writes without the input tokens. -/
def writesEvent : UsageEvent :=
  { sampleEvent with
    inputTokens := none
    cachedInputTokens := none
    cacheWriteInputTokens := some 20
    outputTokens := none }

/-- The page counts the cache writes, the candidate does not. -/
theorem page_counts_writes : ¬PageAgrees (run Tracked.step ⟨.fresh, [], []⟩ [.record writesEvent 0]).db := by
  intro h
  obtain ⟨equivalents, hequivalents, htotal⟩ := h (fun _ => none) false { unpricedTokens := 20 } rfl
  obtain rfl : (⟨[], [("source", {})]⟩ : UsageEquivalents) = equivalents := Except.ok.inj hequivalents
  exact absurd htotal (by decide)

end Zenith.Telemetry
