import Mathlib
import Zenith.Telemetry.Rollups

/-!
# The requests of a history

`Tracked` follows a database with what it does not keep: the contributions of the rows that were archived,
and the requests of the history, each with its highest attempt. `rollups_conserved` says that the live and
the archived rows are those requests, and that the rollups are their sums, as long as the sums are 64-bit
integers.
-/

namespace Zenith.Telemetry

open Zenith.Gateway Zenith.Profiles Zenith.Rollups Zenith.Rows Zenith.Runs Zenith.Tables

/-- A record takes the place of an earlier one of its request, unless that has a higher attempt. -/
def highest (old new : Contribution) : Contribution := if old.attempt ≤ new.attempt then new else old

/-- The requests after an operation. -/
def ledgerStep (requests : List Contribution) : Operation → List Contribution
  | .record event _ =>
    if event.attempt = 0 then requests else upsert Contribution.requestId highest event.contribution requests
  | .clear => []
  | .purge accountIds => accountIds.foldl withoutAccount requests
  | .page => requests
  | .reopen _ => requests

/-- A database with its archived contributions and the requests of its history. -/
structure Tracked where
  db : TelemetryDb
  archived : List Contribution
  requests : List Contribution

/-- Does a record end with an archive? -/
def archivesWith (db : TelemetryDb) (event : UsageEvent) (now : Nat) : Bool :=
  db.accepts event && db.archivesAfter event && (db.record event now).isOk

/-- The archived contributions after an operation. -/
def archivedStep (db : TelemetryDb) (archived : List Contribution) : Operation → List Contribution
  | .record event now =>
    if archivesWith db event now then archived ++ archivedBy (db.insertUsage event now).requestLogs now else archived
  | .clear => []
  | .purge accountIds => accountIds.foldl withoutAccount archived
  | .page => archived
  | .reopen now => if (db.reopen now).isOk then archived ++ archivedBy db.requestLogs now else archived

def Tracked.step (t : Tracked) (op : Operation) : Tracked where
  db := Telemetry.step t.db op
  archived := archivedStep t.db t.archived op
  requests := ledgerStep t.requests op

/-- A database that was just opened: a new one, or one whose rollups were rebuilt from the rollups of rows
archived before and from its rows. -/
inductive Opened (lost : Prop) : Tracked → Prop
  | fresh : Opened lost ⟨.fresh, [], []⟩
  | migrated {legacy : LegacyDb} {db : TelemetryDb} {archived : List RequestLog}
      (hrows : (legacy.requestLogs.map RequestLog.requestId ++ archived.map RequestLog.requestId).Nodup)
      (hkeyed : Keyed legacy.usageCandidateRollups)
      (hlifetimes : ∀ row ∈ archived, row.cacheWriteTtl = none)
      (hrollups : ∀ key column, Holds lost (cellAt (legacy.usageCandidateRollups.map Rollup.migrated) key column)
        (total Contribution.aggregate (archived.map RequestLog.contribution) key column : Nat))
      (hrange : lost ∨ InRange Contribution.aggregate
        (legacy.requestLogs.map RequestLog.contribution ++ archived.map RequestLog.contribution))
      (hmigrate : legacy.migrate = .ok db) :
      Opened lost ⟨db, archived.map RequestLog.contribution,
        legacy.requestLogs.map RequestLog.contribution ++ archived.map RequestLog.contribution⟩

/-- Every request of the history is a live row or an archived one, once, and the live rows are rolled up. -/
structure Accounted (t : Tracked) : Prop where
  requests : (t.db.requestLogs.map RequestLog.contribution ++ t.archived).Perm t.requests
  once : (t.requests.map Contribution.requestId).Nodup
  flagged : ∀ row ∈ t.db.requestLogs, row.usageAggregateRecorded = true

/-- The request of a record was not archived. -/
def NotAgain (t : Tracked) : Operation → Prop
  | .record event _ => event.requestId ∉ t.archived.map Contribution.requestId
  | _ => True

/-- The sums after the operation are 64-bit integers. -/
def StaysInRange (t : Tracked) (op : Operation) : Prop :=
  InRange Contribution.aggregate (ledgerStep t.requests op)

section
variable {lost : Prop} {t : Tracked} {event : UsageEvent} {now : Nat}

theorem map_requestId (rows : List RequestLog) :
    (rows.map RequestLog.contribution).map Contribution.requestId = rows.map RequestLog.requestId :=
  List.map_map ..

/-! ## Requests -/

theorem lookup_requests (h : Accounted t) {requestId : String}
    (hnew : requestId ∉ t.archived.map Contribution.requestId) :
    lookupKey Contribution.requestId requestId t.requests =
      (lookupKey RequestLog.requestId requestId t.db.requestLogs).map RequestLog.contribution := by
  cases hrow : lookupKey RequestLog.requestId requestId t.db.requestLogs with
  | some row =>
    obtain ⟨hmem, rfl⟩ := lookupKey_eq_some hrow
    have hcontribution : row.contribution ∈ t.requests :=
      h.requests.mem_iff.mp (List.mem_append_left _ (List.mem_map_of_mem hmem))
    have hlookup := lookupKey_of_mem h.once hcontribution
    exact hlookup
  | none =>
    refine lookupKey_eq_none.mpr fun hmem => ?_
    rw [((h.requests.map Contribution.requestId).mem_iff).symm, List.map_append, map_requestId, List.mem_append] at hmem
    exact hmem.elim (lookupKey_eq_none.mp hrow) hnew

/-- The other requests are the other rows and the archived ones. -/
theorem perm_other_requests (h : Accounted t) {requestId : String}
    (hnew : requestId ∉ t.archived.map Contribution.requestId) :
    ((others t.db.requestLogs requestId).map RequestLog.contribution ++ t.archived).Perm
      (t.requests.filter fun contribution => contribution.requestId ≠ requestId) := by
  have hfilter := h.requests.filter fun contribution => decide (contribution.requestId ≠ requestId)
  have harchived : (t.archived.filter fun contribution => decide (contribution.requestId ≠ requestId)) = t.archived :=
    List.filter_eq_self.mpr fun contribution hmem =>
      decide_eq_true fun hid => hnew (hid ▸ List.mem_map_of_mem hmem)
  rw [List.filter_append, harchived, List.filter_map] at hfilter
  exact hfilter

theorem requestId_highest (old new : Contribution) (h : old.requestId = new.requestId) :
    (highest old new).requestId = new.requestId := by
  rw [highest]
  split
  · rfl
  · exact h

/-- An accepted record puts its contribution in the place of the one of its request. -/
theorem perm_ledger_record (h : Accounted t)
    (hnew : event.requestId ∉ t.archived.map Contribution.requestId) (haccepts : t.db.accepts event = true) :
    (event.contribution :: ((others t.db.requestLogs event.requestId).map RequestLog.contribution ++ t.archived)).Perm
      (upsert Contribution.requestId highest event.contribution t.requests) := by
  refine (((perm_other_requests h hnew).cons event.contribution).trans ?_)
  have hmerged : merged Contribution.requestId highest event.contribution t.requests = event.contribution := by
    have hlookup : lookupKey Contribution.requestId event.contribution.requestId t.requests =
        (lookupKey RequestLog.requestId event.requestId t.db.requestLogs).map RequestLog.contribution :=
      lookup_requests h hnew
    rw [TelemetryDb.accepts] at haccepts
    rw [merged, hlookup]
    cases hrow : lookupKey RequestLog.requestId event.requestId t.db.requestLogs with
    | none => rfl
    | some row =>
      rw [hrow] at haccepts
      have hattempt : row.contribution.attempt ≤ event.contribution.attempt := of_decide_eq_true haccepts
      exact if_pos hattempt
  have hperm := @upsert_perm _ _ _ Contribution.requestId highest event.contribution _ h.once
  rw [hmerged] at hperm
  exact hperm.symm

/-- A record that is not accepted is one of a request with a higher attempt. -/
theorem perm_ledger_rejected (h : Accounted t)
    (hnew : event.requestId ∉ t.archived.map Contribution.requestId) (haccepts : t.db.accepts event = false) :
    t.requests.Perm (upsert Contribution.requestId highest event.contribution t.requests) := by
  have hlookup : lookupKey Contribution.requestId event.contribution.requestId t.requests =
      (lookupKey RequestLog.requestId event.requestId t.db.requestLogs).map RequestLog.contribution :=
    lookup_requests h hnew
  have hperm := @upsert_perm _ _ _ Contribution.requestId highest event.contribution _ h.once
  rw [TelemetryDb.accepts] at haccepts
  rw [merged, hlookup] at hperm
  cases hrow : lookupKey RequestLog.requestId event.requestId t.db.requestLogs with
  | none =>
    rw [hrow] at haccepts
    cases haccepts
  | some row =>
    rw [hrow] at haccepts hperm hlookup
    have hattempt : ¬row.contribution.attempt ≤ event.contribution.attempt := of_decide_eq_false haccepts
    have hkept : highest row.contribution event.contribution = row.contribution := if_neg hattempt
    obtain ⟨hmem, hid⟩ := lookupKey_eq_some hlookup
    rw [Option.map_some] at hperm
    dsimp only at hperm
    rw [hkept, ← hid] at hperm
    exact (perm_cons_filter h.once hmem).trans hperm.symm

/-- The rows after an accepted record. -/
theorem perm_insert_contributions (hindexed : Indexed t.db) :
    ((t.db.insertUsage event now).requestLogs.map RequestLog.contribution).Perm
      (event.contribution :: (others t.db.requestLogs event.requestId).map RequestLog.contribution) := by
  obtain ⟨row, hcontribution, -, hperm⟩ := perm_insertUsage event now hindexed
  rw [← hcontribution]
  exact hperm.map _

/-- What an archive removes is archived. -/
theorem perm_archived (rows : List RequestLog) (archived : List Contribution) (now : Nat) :
    (rows.map RequestLog.contribution ++ archived).Perm
      ((rows.filter fun row => !(row.createdAt < now - retentionSeconds)).map RequestLog.contribution ++
        (archived ++ archivedBy rows now)) := by
  have hrows := (perm_filter_not (fun row : RequestLog => row.createdAt < now - retentionSeconds) rows).map
    RequestLog.contribution
  rw [List.map_append] at hrows
  refine (hrows.append_right archived).trans ?_
  rw [List.append_assoc]
  exact List.Perm.append_left _ List.perm_append_comm

/-- An archive of rows that are all rolled up does not fail. -/
theorem archiveUsage_ok {db : TelemetryDb} (h : ∀ row ∈ db.requestLogs, row.usageAggregateRecorded = true)
    (now : Nat) : ∃ db', db.archiveUsage now = .ok db' := by
  have hnone : (db.requestLogs.filter fun row =>
      row.createdAt < now - retentionSeconds && !row.usageAggregateRecorded) = [] :=
    List.filter_eq_nil_iff.mpr fun row hrow => by simp [h row hrow]
  have hrange : InRange (aggregateOf RequestLog.candidate RequestLog.column) [] := fun _ _ => Nat.zero_le _
  obtain ⟨rollups, hrollups⟩ := rollUp_ok db.usageCandidateRollups hrange
  refine ⟨_, bind_eq_ok.mpr ⟨rollups, ?_, rfl⟩⟩
  rwa [hnone]

/-! ## Steps -/

/-- What a record does to the tables and to what was archived. -/
theorem record_outcome (t : Tracked) (event : UsageEvent) (now : Nat) :
    ((t.step (.record event now)).db = t.db ∧ (t.step (.record event now)).archived = t.archived ∧
      (event.attempt = 0 ∨ t.db.accepts event = false ∨
        ∃ e, (t.db.insertUsage event now).archiveUsage now = .error e)) ∨
    (event.attempt ≠ 0 ∧ t.db.accepts event = true ∧
      ∃ db', (t.db.insertUsage event now).archiveUsage now = .ok db' ∧
        (t.step (.record event now)).db = db'.clearCachedUsageTotals ∧
        (t.step (.record event now)).archived =
          t.archived ++ archivedBy (t.db.insertUsage event now).requestLogs now) ∨
    (event.attempt ≠ 0 ∧ t.db.accepts event = true ∧
      (t.step (.record event now)).db.requestLogs = (t.db.insertUsage event now).requestLogs ∧
      (t.step (.record event now)).db.usageCandidateRollups =
        (t.db.insertUsage event now).usageCandidateRollups ∧
      (t.step (.record event now)).archived = t.archived) := by
  have hdb : (t.step (.record event now)).db = (t.db.record event now).toOption.getD t.db := rfl
  have harchived : (t.step (.record event now)).archived = if archivesWith t.db event now then
      t.archived ++ archivedBy (t.db.insertUsage event now).requestLogs now else t.archived := rfl
  cases hrecord : t.db.record event now with
  | error e =>
    rw [hrecord] at hdb
    rw [archivesWith, hrecord] at harchived
    refine .inl ⟨hdb, harchived.trans (by simp [Except.isOk, Except.toBool]), ?_⟩
    by_cases hattempt : event.attempt = 0
    · exact .inl hattempt
    · refine .inr (.inr ?_)
      rw [TelemetryDb.record, if_neg hattempt] at hrecord
      split at hrecord
      · dsimp only at hrecord
        split at hrecord
        · cases harchive : (t.db.insertUsage event now).archiveUsage now with
          | error e => exact ⟨e, rfl⟩
          | ok db' =>
            rw [harchive] at hrecord
            cases hrecord
        · cases hrecord
      · cases hrecord
  | ok db' =>
    have hok : (t.db.record event now).isOk = true := by rw [hrecord]; rfl
    rw [archivesWith, hok] at harchived
    rw [hrecord] at hdb
    rcases record_cases hrecord with ⟨haccepts, rfl⟩ | ⟨hattempt, haccepts, harchives, db', harchive, rfl⟩ |
      ⟨hattempt, haccepts, harchives, rfl⟩
    · rw [haccepts] at harchived
      exact .inl ⟨hdb, harchived, .inr (.inl haccepts)⟩
    · rw [haccepts, harchives] at harchived
      exact .inr (.inl ⟨hattempt, haccepts, db', harchive, hdb, harchived⟩)
    · rw [haccepts, harchives] at harchived
      refine .inr (.inr ⟨hattempt, haccepts, ?_, ?_, harchived⟩)
      · rw [hdb]
        rfl
      · rw [hdb]
        rfl

/-- The purge of the accounts, one after the other. -/
def Tracked.purgeAccount (t : Tracked) (accountId : String) : Tracked where
  db := t.db.purgeAccount accountId
  archived := withoutAccount t.archived accountId
  requests := withoutAccount t.requests accountId

theorem purge_tracked (t : Tracked) (accountIds : List String) :
    (t.step (.purge accountIds)).db.requestLogs = (accountIds.foldl Tracked.purgeAccount t).db.requestLogs ∧
    (t.step (.purge accountIds)).db.usageCandidateRollups =
      (accountIds.foldl Tracked.purgeAccount t).db.usageCandidateRollups ∧
    (t.step (.purge accountIds)).archived = (accountIds.foldl Tracked.purgeAccount t).archived ∧
    (t.step (.purge accountIds)).requests = (accountIds.foldl Tracked.purgeAccount t).requests := by
  have hfold : (accountIds.foldl Tracked.purgeAccount t).db = accountIds.foldl TelemetryDb.purgeAccount t.db ∧
      (accountIds.foldl Tracked.purgeAccount t).archived = accountIds.foldl withoutAccount t.archived ∧
      (accountIds.foldl Tracked.purgeAccount t).requests = accountIds.foldl withoutAccount t.requests := by
    induction accountIds generalizing t with
    | nil => exact ⟨rfl, rfl, rfl⟩
    | cons accountId accountIds ih => exact ih (t.purgeAccount accountId)
  obtain ⟨hdb, harchived, hrequests⟩ := hfold
  refine ⟨?_, ?_, harchived.symm, hrequests.symm⟩
  · show (t.db.purge accountIds).requestLogs = _
    rw [hdb, TelemetryDb.purge]
    split <;> rfl
  · show (t.db.purge accountIds).usageCandidateRollups = _
    rw [hdb, TelemetryDb.purge]
    split <;> rfl

/-- A page changes no table. -/
theorem page_tables (db : TelemetryDb) : (step db .page).requestLogs = db.requestLogs ∧
    (step db .page).usageCandidateRollups = db.usageCandidateRollups := by
  rw [step, TelemetryDb.cachedUsageTotals]
  cases db.usageTotalsCache with
  | some totals => exact ⟨rfl, rfl⟩
  | none => cases usageTotals db.requestLogs <;> exact ⟨rfl, rfl⟩

/-- Opening a database again archives, or leaves the database that could not be archived. -/
theorem reopen_outcome (t : Tracked) (now : Nat) :
    (∃ e, t.db.archiveUsage now = .error e ∧ t.step (.reopen now) = t) ∨
    ∃ db', t.db.archiveUsage now = .ok db' ∧ t.step (.reopen now) =
      ⟨db'.clearCachedUsageTotals, t.archived ++ archivedBy t.db.requestLogs now, t.requests⟩ := by
  cases harchive : t.db.archiveUsage now with
  | error e =>
    have hreopen : t.db.reopen now = .error e := by rw [TelemetryDb.reopen, harchive]; rfl
    refine .inl ⟨e, rfl, ?_⟩
    rw [Tracked.step, step, archivedStep, hreopen]
    rfl
  | ok db' =>
    have hreopen : t.db.reopen now = .ok db'.clearCachedUsageTotals := by rw [TelemetryDb.reopen, harchive]; rfl
    refine .inr ⟨db', rfl, ?_⟩
    rw [Tracked.step, step, archivedStep, hreopen]
    rfl

theorem Accounted.congr {t' : Tracked} (h : Accounted t) (hrows : t'.db.requestLogs = t.db.requestLogs)
    (harchived : t'.archived = t.archived) (hrequests : t'.requests = t.requests) : Accounted t' :=
  ⟨by rw [hrows, harchived, hrequests]; exact h.requests, by rw [hrequests]; exact h.once,
    by rw [hrows]; exact h.flagged⟩

theorem Accounted.archive {db db' : TelemetryDb} {archived requests : List Contribution}
    (h : Accounted ⟨db, archived, requests⟩) (harchive : db.archiveUsage now = .ok db') :
    Accounted ⟨db'.clearCachedUsageTotals, archived ++ archivedBy db.requestLogs now, requests⟩ := by
  obtain ⟨rollups, -, rfl⟩ := archiveUsage_eq_ok harchive
  refine ⟨(perm_archived db.requestLogs archived now).symm.trans h.requests, h.once, fun row hrow => ?_⟩
  exact h.flagged row (List.mem_filter.mp hrow).1

theorem Accounted.purgeAccount (h : Accounted t) (accountId : String) : Accounted (t.purgeAccount accountId) where
  requests := by
    show ((t.db.requestLogs.filter fun row => row.accountId ≠ some accountId).map RequestLog.contribution ++
      withoutAccount t.archived accountId).Perm (withoutAccount t.requests accountId)
    rw [map_withoutAccount, withoutAccount, withoutAccount, ← List.filter_append]
    exact h.requests.filter _
  once := h.once.sublist (List.filter_sublist.map _)
  flagged row hrow := h.flagged row (List.mem_filter.mp hrow).1

theorem flagged_insertUsage (event : UsageEvent) (now : Nat) (hindexed : Indexed t.db)
    (h : ∀ row ∈ t.db.requestLogs, row.usageAggregateRecorded = true) :
    ∀ row ∈ (t.db.insertUsage event now).requestLogs, row.usageAggregateRecorded = true := by
  intro row hrow
  obtain ⟨new, -, hflag, hperm⟩ := perm_insertUsage event now hindexed
  rcases List.mem_cons.mp (hperm.mem_iff.mp hrow) with rfl | hother
  · exact hflag
  · exact h row (List.mem_filter.mp hother).1

/-- The database after a record that is accepted, before the archive. -/
theorem Accounted.insert (now : Nat) (hindexed : Indexed t.db) (h : Accounted t)
    (hnew : event.requestId ∉ t.archived.map Contribution.requestId) (haccepts : t.db.accepts event = true) :
    Accounted ⟨t.db.insertUsage event now, t.archived,
      upsert Contribution.requestId highest event.contribution t.requests⟩ where
  requests := ((perm_insert_contributions hindexed).append_right _).trans (perm_ledger_record h hnew haccepts)
  once := nodup_upsert (fun old hid => requestId_highest old _ hid) h.once
  flagged := flagged_insertUsage event now hindexed h.flagged

theorem accounted_step (hindexed : Indexed t.db) (h : Accounted t) {op : Operation} (hnew : NotAgain t op) :
    Accounted (t.step op) := by
  cases op with
  | record event now =>
    have hinsert (haccepts : t.db.accepts event = true) := h.insert now hindexed hnew haccepts
    have hrequests (hattempt : event.attempt ≠ 0) : (t.step (.record event now)).requests =
        upsert Contribution.requestId highest event.contribution t.requests := if_neg hattempt
    rcases record_outcome t event now with ⟨hdb, harchived, hwhy⟩ |
      ⟨hattempt, haccepts, db', harchive, hdb, harchived⟩ | ⟨hattempt, haccepts, hrows, -, harchived⟩
    · by_cases hattempt : event.attempt = 0
      · exact h.congr (by rw [hdb]) harchived (if_pos hattempt)
      · have haccepts : t.db.accepts event = false := by
          rcases hwhy with hzero | haccepts | ⟨e, hfailed⟩
          · exact absurd hzero hattempt
          · exact haccepts
          · by_contra haccepts
            obtain ⟨db', hdb'⟩ := archiveUsage_ok (hinsert (by simpa using haccepts)).flagged now
            exact nomatch hfailed.symm.trans hdb'
        have hrejected : Accounted ⟨t.db, t.archived,
            upsert Contribution.requestId highest event.contribution t.requests⟩ :=
          ⟨h.requests.trans (perm_ledger_rejected h hnew haccepts),
            nodup_upsert (fun old hid => requestId_highest old _ hid) h.once, h.flagged⟩
        exact hrejected.congr (by rw [hdb]) harchived (hrequests hattempt)
    · exact ((hinsert haccepts).archive harchive).congr (by rw [hdb]) harchived (hrequests hattempt)
    · exact (hinsert haccepts).congr hrows harchived (hrequests hattempt)
  | clear => exact ⟨.nil, .nil, fun row hrow => nomatch hrow⟩
  | purge accountIds =>
    have hpurged : Accounted (accountIds.foldl Tracked.purgeAccount t) := by
      clear hindexed hnew
      induction accountIds generalizing t with
      | nil => exact h
      | cons accountId accountIds ih => exact ih (h.purgeAccount accountId)
    obtain ⟨hrows, -, harchived, hrequests⟩ := purge_tracked t accountIds
    exact hpurged.congr hrows harchived hrequests
  | page => exact h.congr (page_tables t.db).1 rfl rfl
  | reopen now =>
    rcases reopen_outcome t now with ⟨e, -, hsame⟩ | ⟨db', harchive, hreopen⟩
    · rwa [hsame]
    · rw [hreopen]
      exact h.archive harchive

/-- The tables of a tracked database. -/
def Tracked.Rolled (lost : Prop) (t : Tracked) : Prop :=
  Telemetry.Rolled lost t.db.requestLogs t.db.usageCandidateRollups t.archived

theorem rolled_step (hindexed : Indexed t.db) (h : t.Rolled lost) {op : Operation}
    (hrange : lost ∨ Accounted t ∧ NotAgain t op ∧ StaysInRange t op) : (t.step op).Rolled lost := by
  cases op with
  | record event now =>
    have hinserted (hattempt : event.attempt ≠ 0) (haccepts : t.db.accepts event = true) :
        lost ∨ Accounted ⟨t.db.insertUsage event now, t.archived,
            upsert Contribution.requestId highest event.contribution t.requests⟩ ∧
          InRange Contribution.aggregate (upsert Contribution.requestId highest event.contribution t.requests) := by
      refine hrange.imp id fun ⟨haccounted, hnew, hstays⟩ => ⟨haccounted.insert _ hindexed hnew haccepts, ?_⟩
      rwa [StaysInRange, ledgerStep, if_neg hattempt] at hstays
    have hinsert (hattempt : event.attempt ≠ 0) (haccepts : t.db.accepts event = true) :
        Telemetry.Rolled lost (t.db.insertUsage event now).requestLogs
          (t.db.insertUsage event now).usageCandidateRollups t.archived := by
      refine rolled_insertUsage hindexed h (hrange.imp id fun ⟨haccounted, hnew, hstays⟩ => ?_)
      rw [StaysInRange, ledgerStep, if_neg hattempt] at hstays
      refine inRange_perm ?_ hstays
      have hothers : flagged (others t.db.requestLogs event.requestId) =
          (others t.db.requestLogs event.requestId).map RequestLog.contribution :=
        flagged_eq_map fun row hrow => haccounted.flagged row (List.mem_filter.mp hrow).1
      rw [hothers]
      exact perm_ledger_record haccounted hnew haccepts
    rcases record_outcome t event now with ⟨hdb, harchived, -⟩ |
      ⟨hattempt, haccepts, db', harchive, hdb, harchived⟩ | ⟨hattempt, haccepts, hrows, hrollups, harchived⟩
    · rwa [Tracked.Rolled, hdb, harchived]
    · rw [Tracked.Rolled, hdb, harchived]
      show Telemetry.Rolled lost db'.requestLogs db'.usageCandidateRollups _
      refine rolled_archiveUsage (hinsert hattempt haccepts) harchive ?_
      exact (hinserted hattempt haccepts).imp id fun ⟨haccounted, hstays⟩ => inRange_perm haccounted.requests hstays
    · rw [Tracked.Rolled, hrows, hrollups, harchived]
      exact hinsert hattempt haccepts
  | clear => exact rolled_nil
  | purge accountIds =>
    have hpurged : (accountIds.foldl Tracked.purgeAccount t).Rolled lost := by
      clear hindexed hrange
      induction accountIds generalizing t with
      | nil => exact h
      | cons accountId accountIds ih => exact ih (rolled_purgeAccount h accountId)
    obtain ⟨hrows, hrollups, harchived, -⟩ := purge_tracked t accountIds
    rwa [Tracked.Rolled, hrows, hrollups, harchived]
  | page =>
    obtain ⟨hrows, hrollups⟩ := page_tables t.db
    show Telemetry.Rolled lost (step t.db .page).requestLogs (step t.db .page).usageCandidateRollups t.archived
    rwa [hrows, hrollups]
  | reopen now =>
    rcases reopen_outcome t now with ⟨e, -, hsame⟩ | ⟨db', harchive, hreopen⟩
    · rwa [hsame]
    · rw [Tracked.Rolled, hreopen]
      show Telemetry.Rolled lost db'.requestLogs db'.usageCandidateRollups _
      refine rolled_archiveUsage h harchive (hrange.imp id fun ⟨haccounted, _, hstays⟩ => ?_)
      exact inRange_perm haccounted.requests hstays

/-! ## Starts -/

theorem migrate_eq_ok {legacy : LegacyDb} {db : TelemetryDb} (h : legacy.migrate = .ok db) :
    ∃ rollups, rollUp integerOverflow RequestLog.candidate RequestLog.column
        (legacy.usageCandidateRollups.map Rollup.migrated) legacy.requestLogs = .ok rollups ∧
      db.requestLogs = legacy.requestLogs.map (fun row => { row with usageAggregateRecorded := true }) ∧
      db.usageCandidateRollups = rollups := by
  rw [LegacyDb.migrate] at h
  obtain ⟨rollups, hrollups, h⟩ := bind_eq_ok.mp h
  obtain rfl := Except.ok.inj h
  exact ⟨rollups, hrollups, rfl, rfl⟩

/-- The flag does not change what a row contributes. -/
theorem map_flagged (rows : List RequestLog) :
    (rows.map fun row => { row with usageAggregateRecorded := true }).map RequestLog.contribution =
      rows.map RequestLog.contribution := by
  rw [List.map_map]
  rfl

theorem opened_indexed (h : Opened lost t) : Indexed t.db := by
  cases h with
  | fresh => exact indexed_fresh
  | migrated hrows _ _ _ _ hmigrate =>
    obtain ⟨rollups, -, hlogs, -⟩ := migrate_eq_ok hmigrate
    rw [Indexed, hlogs, List.map_map]
    exact hrows.of_append_left

theorem opened_accounted (h : Opened lost t) : Accounted t := by
  cases h with
  | fresh => exact ⟨.nil, .nil, fun row hrow => nomatch hrow⟩
  | migrated hrows _ _ _ _ hmigrate =>
    obtain ⟨rollups, -, hlogs, -⟩ := migrate_eq_ok hmigrate
    refine ⟨by rw [hlogs, map_flagged], by rwa [List.map_append, map_requestId, map_requestId], fun row hrow => ?_⟩
    rw [hlogs] at hrow
    obtain ⟨_, -, rfl⟩ := List.mem_map.mp hrow
    rfl

theorem opened_rolled (h : Opened lost t) : t.Rolled lost := by
  cases h with
  | fresh => exact rolled_nil
  | @migrated legacy db archived _ hkeyed _ hrollups hrange hmigrate =>
    obtain ⟨rollups, hrollup, hlogs, rfl⟩ := migrate_eq_ok hmigrate
    have hkept := (rollUp_eq_ok hrollup).1
    have hflagged : flagged db.requestLogs = legacy.requestLogs.map RequestLog.contribution := by
      rw [flagged_eq_map, hlogs, map_flagged]
      intro row hrow
      rw [hlogs] at hrow
      obtain ⟨_, -, rfl⟩ := List.mem_map.mp hrow
      rfl
    have hmigrated : Keyed (legacy.usageCandidateRollups.map Rollup.migrated) := by
      rw [Keyed, List.map_map]
      exact hkeyed
    refine ⟨hkept hmigrated, fun key column => ?_⟩
    show Holds lost (cellAt db.usageCandidateRollups key column)
      (total Contribution.aggregate (flagged db.requestLogs ++ archived.map RequestLog.contribution) key column : Nat)
    have hfits := hrange.imp id fun hrange => fits_of_le (hrange key column)
    rw [total_append, Nat.add_comm, Nat.cast_add, ← total_aggregateOf legacy.requestLogs] at hfits
    rw [hflagged, total_append, Nat.add_comm, Nat.cast_add, ← total_aggregateOf legacy.requestLogs]
    exact (hrollups key column).rollUp hrollup hfits

end

/-- Every rollup is the sum of what the flagged rows and the archived ones contribute, and these are the
requests of the history, each of them once. -/
structure Conserved (t : Tracked) : Prop where
  keyed : Keyed t.db.usageCandidateRollups
  sums : ∀ key column, cellAt t.db.usageCandidateRollups key column =
    .integer (total Contribution.aggregate (flagged t.db.requestLogs ++ t.archived) key column : Nat)
  accounted : Accounted t

/-- The rollups are conserved by every run in which no request is recorded after it was archived and no sum
leaves the 64 bits. -/
theorem rollups_conserved {t : Tracked} (hopen : Opened False t) {ops : List Operation}
    (h : StepsMeet Tracked.step (fun t op => NotAgain t op ∧ StaysInRange t op) t ops) :
    Conserved (run Tracked.step t ops) := by
  have hinvariant : Indexed (run Tracked.step t ops).db ∧ Accounted (run Tracked.step t ops) ∧
      (run Tracked.step t ops).Rolled False := by
    refine run_invariant (I := fun t => Indexed t.db ∧ Accounted t ∧ t.Rolled False) ?_
      ⟨opened_indexed hopen, opened_accounted hopen, opened_rolled hopen⟩ h
    rintro t op ⟨hindexed, haccounted, hrolled⟩ ⟨hnew, hstays⟩
    exact ⟨indexed_step hindexed op, accounted_step hindexed haccounted hnew,
      rolled_step hindexed hrolled (.inr ⟨haccounted, hnew, hstays⟩)⟩
  obtain ⟨-, haccounted, hrolled⟩ := hinvariant
  exact ⟨hrolled.keyed, fun key column => (hrolled.holds key column).exact, haccounted⟩

theorem rollups_conserved_sample : Conserved (run Tracked.step ⟨.fresh, [], []⟩
    [.record sampleEvent 0, .record { sampleEvent with attempt := 2, inputTokens := some 50 } 0]) := by
  have hrange {requests : List Contribution} (h : requests.length ≤ 1)
      (hrow : ∀ contribution ∈ requests, ∃ row : RequestLog, contribution = row.contribution) : InRange Contribution.aggregate requests := by
    intro key column
    match requests with
    | [] => exact Nat.zero_le _
    | [contribution] =>
      obtain ⟨row, rfl⟩ := hrow contribution (List.mem_singleton_self _)
      rw [total_cons, total_nil, Nat.add_zero]
      split
      · exact value_le row column
      · exact Nat.zero_le _
  refine rollups_conserved .fresh ⟨⟨List.not_mem_nil, hrange (by decide) ?_⟩, ⟨?_, hrange (by decide) ?_⟩, trivial⟩
  · intro contribution hmem
    exact ⟨rowOf sampleEvent 0 0, List.mem_singleton.mp hmem⟩
  · exact List.not_mem_nil
  · intro contribution hmem
    exact ⟨rowOf { sampleEvent with attempt := 2, inputTokens := some 50 } 0 0, List.mem_singleton.mp hmem⟩

/-- Two requests whose input tokens do not fit together leave a floating-point number. -/
theorem rollup_overflows :
    StepsMeet Tracked.step NotAgain ⟨.fresh, [], []⟩
      [.record { sampleEvent with inputTokens := some maxInteger } 0,
        .record { sampleEvent with requestId := "other", inputTokens := some maxInteger } 0] ∧
    ¬Conserved (run Tracked.step ⟨.fresh, [], []⟩
      [.record { sampleEvent with inputTokens := some maxInteger } 0,
        .record { sampleEvent with requestId := "other", inputTokens := some maxInteger } 0]) := by
  refine ⟨⟨List.not_mem_nil, List.not_mem_nil, trivial⟩, fun h => ?_⟩
  have hsum := h.sums sampleEvent.candidate .inputTokens
  exact absurd hsum (by decide)

end Zenith.Telemetry
