import Mathlib
import Zenith.Quota.SnapshotJson

/-!
# Edges of a quota window

The history of an account's quota: refreshes that succeed or fail, and restarts, which store the snapshot and read it
back. An edge is an episode of the stored window (`recorded_edge`), so it is reported when it begins, and its
fingerprint is kept until it ends. `edges_reported_once` puts this together.
-/

namespace Zenith.Quota

open Episodes Zenith.Tables

/-! ## Histories -/

/-- What happens to the quota of an account. -/
inductive QuotaEvent
  | refreshed (data : QuotaRefreshData)
  | failed (failure : QuotaRefreshFailure) (observedAtMs : UInt64)
  | restarted

namespace QuotaEvent

variable (sha256 : List UInt8 → List UInt8) (quota : QuotaSnapshot)

def reduce : QuotaEvent → Option QuotaUpdate
  | refreshed data => (reduceAccountQuota sha256 quota (.ok data) 0).toOption
  | failed failure observedAtMs => (reduceAccountQuota sha256 quota (.error failure) observedAtMs.toNat).toOption
  | restarted => none

/-- The stored snapshot after an event. There is none if the result of a refresh cannot be normalized. -/
def step (event : QuotaEvent) : Option QuotaSnapshot :=
  match event with
  | restarted => QuotaSnapshot.fromJson quota.toJson
  | event => (event.reduce sha256 quota).map (·.quota)

/-- The transitions that an event reports. -/
def reported (event : QuotaEvent) (edge : WindowEdge) : List QuotaTransition :=
  ((event.reduce sha256 quota).map fun update => update.reported edge).getD []

end QuotaEvent

section
variable (sha256 : List UInt8 → List UInt8)

/-- The snapshots of an account before and after each of its first `n` events. -/
structure QuotaHistory (events : Nat → QuotaEvent) (snapshots : Nat → QuotaSnapshot) (n : Nat) : Prop where
  start : snapshots 0 = {}
  step : ∀ i < n, (events i).step sha256 (snapshots i) = some (snapshots (i + 1))

end

/-- The reports of a window are in the order of their times. -/
def ReportsInOrder (events : Nat → QuotaEvent) (kind : QuotaWindowKind) (n : Nat) : Prop :=
  ∀ i j, i < j → j < n → ∀ data data', events i = .refreshed data → events j = .refreshed data' →
    ∀ input input', data.window kind = some input → data'.window kind = some input' →
      input.observedAtMs < input'.observedAtMs

/-- The edge holds in a snapshot. -/
def WindowEdge.at (edge : WindowEdge) (kind : QuotaWindowKind) (quota : QuotaSnapshot) : Bool :=
  (quota.window kind).any edge.holds

/-- The fingerprint that is stored for an edge. -/
def WindowEdge.stored (edge : WindowEdge) (kind : QuotaWindowKind) (quota : QuotaSnapshot) : Option String :=
  (quota.window kind).bind edge.fingerprint

/-! ## Stored windows -/

/-- What every stored window keeps: its slot, its widths, and a fingerprint for each edge that holds. -/
structure QuotaSnapshot.Stored (quota : QuotaSnapshot) : Prop where
  fits : quota.Fits
  kind : ∀ kind window, quota.window kind = some window → window.kind = kind
  fingerprint : ∀ (edge : WindowEdge) kind window, quota.window kind = some window →
    (edge.fingerprint window).isSome = edge.holds window

section
variable {sha256 : List UInt8 → List UInt8} {quota next : QuotaSnapshot}

theorem stored_empty : QuotaSnapshot.Stored {} where
  fits := QuotaSnapshot.fits_empty
  kind kind _ h := by cases kind <;> exact nomatch h
  fingerprint _ kind _ h := by cases kind <;> exact nomatch h

theorem QuotaEvent.step_refreshed {data : QuotaRefreshData} (h : (QuotaEvent.refreshed data).step sha256 quota = some next) :
    ∃ update, reduceAccountQuota sha256 quota (.ok data) 0 = .ok update ∧ update.quota = next ∧
      ∀ edge, (QuotaEvent.refreshed data).reported sha256 quota edge = update.reported edge := by
  obtain ⟨update, hreduce, hquota⟩ := Option.map_eq_some_iff.mp h
  refine ⟨update, ?_, hquota, fun edge => ?_⟩
  · have hok : (reduceAccountQuota sha256 quota (.ok data) 0).toOption = some update := hreduce
    cases hresult : reduceAccountQuota sha256 quota (.ok data) 0 with
    | error error =>
      rw [hresult] at hok
      exact nomatch hok
    | ok result =>
      rw [hresult] at hok
      rw [Option.some.inj hok]
  · rw [reported, hreduce]
    rfl

variable {event : QuotaEvent}

/-- Other events keep the windows and report nothing. -/
theorem QuotaEvent.step_other (hquota : quota.Stored) (hevent : ∀ data, event ≠ .refreshed data)
    (h : event.step sha256 quota = some next) :
    (∀ kind, next.window kind = quota.window kind) ∧ next.Fits ∧ ∀ edge, event.reported sha256 quota edge = [] := by
  cases event with
  | refreshed data => exact absurd rfl (hevent data)
  | failed failure observedAtMs =>
    have hmap : ((failed failure observedAtMs).reduce sha256 quota).map (·.quota) = some next := h
    obtain ⟨update, hreduce, rfl⟩ := Option.map_eq_some_iff.mp hmap
    have hresult : reduceAccountQuota sha256 quota (.error failure) observedAtMs.toNat = .ok update :=
      congrArg Except.ok (Option.some.inj hreduce)
    obtain ⟨hsame, hnothing⟩ := reduceAccountQuota_failed hresult
    refine ⟨fun kind => ?_, fits_reduceAccountQuota hquota.fits observedAtMs.toNat_lt hresult, fun edge => ?_⟩
    · rw [← window_withoutError, hsame, window_withoutError]
    · rw [reported, hreduce]
      exact hnothing edge
  | restarted =>
    have hread : QuotaSnapshot.fromJson quota.toJson = some next := h
    rw [QuotaSnapshot.fromJson_toJson hquota.fits] at hread
    obtain rfl := Option.some.inj hread
    exact ⟨fun _ => rfl, hquota.fits, fun _ => rfl⟩

theorem stored_step (hquota : quota.Stored) (h : event.step sha256 quota = some next) :
    next.Stored := by
  by_cases hrefreshed : ∃ data, event = .refreshed data
  · obtain ⟨data, rfl⟩ := hrefreshed
    obtain ⟨update, hreduce, rfl, -⟩ := QuotaEvent.step_refreshed h
    refine ⟨fits_reduceAccountQuota hquota.fits (by decide) hreduce, fun kind window hwindow => ?_,
      fun edge kind window hwindow => ?_⟩
    · obtain ⟨input, -, hkind, hnormalized⟩ := window_of_refresh hreduce hwindow
      exact (normalize_fields hnormalized).1.trans hkind
    · obtain ⟨input, -, -, hnormalized⟩ := window_of_refresh hreduce hwindow
      exact isSome_fingerprint_normalize edge hnormalized
  · obtain ⟨hwindows, hfits, -⟩ := QuotaEvent.step_other hquota (fun data hdata => hrefreshed ⟨data, hdata⟩) h
    refine ⟨hfits, fun kind window hwindow => ?_, fun edge kind window hwindow => ?_⟩
    · exact hquota.kind kind window ((hwindows kind).symm.trans hwindow)
    · exact hquota.fingerprint edge kind window ((hwindows kind).symm.trans hwindow)

/-- What an event reports: every edge that occurs, under the fingerprint that is stored. -/
theorem reported_step (hquota : quota.Stored) (h : event.step sha256 quota = some next)
    (edge : WindowEdge) (kind : QuotaWindowKind) :
    (event.reported sha256 quota edge).filter (fun transition => transition.windowKind = kind) =
      if edge.occurs next quota kind then (edge.report next kind).toList else [] := by
  have hnext := stored_step hquota h
  by_cases hrefreshed : ∃ data, event = .refreshed data
  · obtain ⟨data, rfl⟩ := hrefreshed
    obtain ⟨update, hreduce, rfl, hreported⟩ := QuotaEvent.step_refreshed h
    rw [hreported, (reduceAccountQuota_updated hreduce).2 edge]
    exact filter_transitions hnext.kind hquota.kind (hnext.fingerprint edge) kind
  · obtain ⟨hwindows, -, hnothing⟩ := QuotaEvent.step_other hquota (fun data hdata => hrefreshed ⟨data, hdata⟩) h
    have hoccurs : edge.occurs next quota kind = false := by
      unfold WindowEdge.occurs
      rw [hwindows]
      cases quota.window kind with
      | none => rfl
      | some window => exact Bool.not_and_self _
    rw [hnothing, hoccurs]
    rfl

/-- A window without its edge has no fingerprint for it. -/
theorem heldFingerprint_eq (hquota : quota.Stored) (edge : WindowEdge) (kind : QuotaWindowKind) :
    edge.heldFingerprint (quota.window kind) = edge.stored kind quota := by
  unfold WindowEdge.heldFingerprint WindowEdge.stored
  cases hwindow : quota.window kind with
  | none => rfl
  | some window =>
    rw [Option.filter_some, Option.bind_some]
    have hstored := hquota.fingerprint edge kind window hwindow
    split
    case isTrue => rfl
    case isFalse hholds =>
      rw [Bool.eq_false_of_not_eq_true hholds, Option.isSome_eq_false_iff, Option.isNone_iff_eq_none] at hstored
      exact hstored.symm

end

/-! ## Episodes -/

section
variable (sha256 : List UInt8 → List UInt8)

def QuotaEvent.isRefresh (event : QuotaEvent) : Prop := ∃ data, event = .refreshed data

/-- The fingerprint that an event would draw for an edge. -/
def WindowEdge.drawn (edge : WindowEdge) (kind : QuotaWindowKind) : QuotaEvent → String
  | .refreshed data => ((data.window kind).map (edge.fresh sha256)).getD ""
  | .failed _ _ | .restarted => ""

end

section
variable {sha256 : List UInt8 → List UInt8} {events : Nat → QuotaEvent} {snapshots : Nat → QuotaSnapshot} {n : Nat}

theorem stored_snapshot (h : QuotaHistory sha256 events snapshots n) {i : Nat} (hi : i ≤ n) : (snapshots i).Stored := by
  induction i with
  | zero =>
    rw [h.start]
    exact stored_empty
  | succ i ih => exact stored_step (ih (Nat.le_of_succ_le hi)) (h.step i hi)

/-- An edge of a stored window is an episode. -/
theorem recorded_edge (h : QuotaHistory sha256 events snapshots n) (edge : WindowEdge) (kind : QuotaWindowKind) :
    Recorded (fun i => (events i).isRefresh) (fun i => edge.at kind (snapshots i))
      (fun i => edge.stored kind (snapshots i)) (fun i => edge.drawn sha256 kind (events i)) n where
  start := by
    rw [h.start]
    cases kind <;> exact ⟨rfl, rfl⟩
  kept i hi hevent := by
    have hsame := (QuotaEvent.step_other (stored_snapshot h (Nat.le_of_lt hi))
      (fun data hdata => hevent ⟨data, hdata⟩) (h.step i hi)).1 kind
    unfold WindowEdge.at WindowEdge.stored
    rw [hsame]
    exact ⟨rfl, rfl⟩
  observes i hi hevent := by
    obtain ⟨data, hdata⟩ := hevent
    have hstep := h.step i hi
    rw [hdata] at hstep ⊢
    obtain ⟨update, hreduce, hquota, -⟩ := QuotaEvent.step_refreshed hstep
    rw [← hquota, ← heldFingerprint_eq (stored_snapshot h (Nat.le_of_lt hi)) edge kind]
    unfold WindowEdge.at WindowEdge.stored
    cases hwindow : update.quota.window kind with
    | none => rfl
    | some window =>
      obtain ⟨input, hinput, -, hnormalized⟩ := window_of_refresh hreduce hwindow
      have hdrawn : edge.drawn sha256 kind (.refreshed data) = edge.fresh sha256 input := by
        rw [WindowEdge.drawn, hinput]
        rfl
      rw [Option.any_some, Option.bind_some, hdrawn]
      exact fingerprint_normalize edge hnormalized

/-- A window that is stored after a refresh was reported in it. -/
theorem reported_of_at (h : QuotaHistory sha256 events snapshots n) {edge : WindowEdge} {kind : QuotaWindowKind} {i : Nat}
    (hi : i < n) {data : QuotaRefreshData} (hdata : events i = .refreshed data)
    (hat : edge.at kind (snapshots (i + 1)) = true) :
    ∃ input, data.window kind = some input ∧ input.kind = kind := by
  have hstep := h.step i hi
  rw [hdata] at hstep
  obtain ⟨update, hreduce, hquota, -⟩ := QuotaEvent.step_refreshed hstep
  rw [← hquota] at hat
  unfold WindowEdge.at at hat
  cases hwindow : update.quota.window kind with
  | none =>
    rw [hwindow] at hat
    exact nomatch hat
  | some window =>
    obtain ⟨input, hinput, hkind, -⟩ := window_of_refresh hreduce hwindow
    exact ⟨input, hinput, hkind⟩

/-- Two refreshes draw different fingerprints. -/
theorem drawn_ne (hsha256 : Function.Injective sha256) (h : QuotaHistory sha256 events snapshots n)
    {kind : QuotaWindowKind} (horder : ReportsInOrder events kind n) {edge : WindowEdge} {k l : Nat} (hkl : k < l)
    (hl : l < n) (hk' : (events k).isRefresh) (hl' : (events l).isRefresh)
    (hatk : edge.at kind (snapshots (k + 1)) = true) (hatl : edge.at kind (snapshots (l + 1)) = true) :
    edge.drawn sha256 kind (events k) ≠ edge.drawn sha256 kind (events l) := by
  obtain ⟨data, hdata⟩ := hk'
  obtain ⟨data', hdata'⟩ := hl'
  obtain ⟨input, hinput, -⟩ := reported_of_at h (hkl.trans hl) hdata hatk
  obtain ⟨input', hinput', -⟩ := reported_of_at h hl hdata' hatl
  rw [hdata, hdata', WindowEdge.drawn, WindowEdge.drawn, hinput, hinput']
  intro heq
  have htimes := (fresh_inj hsha256 heq).2.2
  exact absurd (horder k l hkl hl data data' hdata hdata' input input' hinput hinput') (htimes ▸ UInt64.lt_irrefl _)

/-- In every history of refreshes, failed refreshes and restarts, an event reports an edge of a window exactly when
the window goes from not being there yet to being there, once, and under the fingerprint that is stored. The
fingerprint is stored as long as the edge holds, and stays the same. Two episodes with a gap between them have
different fingerprints, and so have the two edges. -/
theorem edges_reported_once (hsha256 : Function.Injective sha256) (h : QuotaHistory sha256 events snapshots n)
    (kind : QuotaWindowKind) (edge : WindowEdge) :
    (∀ i < n, (events i).isRefresh → ∀ before after, (snapshots i).window kind = some before →
      (snapshots (i + 1)).window kind = some after →
      ((events i).reported sha256 (snapshots i) edge).filter (fun transition => transition.windowKind = kind) =
        if !edge.holds before && edge.holds after then
          ((edge.stored kind (snapshots (i + 1))).map fun fingerprint =>
            QuotaTransition.mk kind fingerprint after.observedAtMs).toList
        else []) ∧
    (∀ i < n, ¬(events i).isRefresh → (events i).reported sha256 (snapshots i) edge = []) ∧
    (∀ i ≤ n, (edge.stored kind (snapshots i)).isSome = edge.at kind (snapshots i)) ∧
    (∀ i j, i ≤ j → j ≤ n → (∀ m, i ≤ m → m ≤ j → edge.at kind (snapshots m) = true) →
      edge.stored kind (snapshots j) = edge.stored kind (snapshots i)) ∧
    (ReportsInOrder events kind n → ∀ i m j, i ≤ m → m ≤ j → j ≤ n → edge.at kind (snapshots m) = false →
      ∀ fingerprint fingerprint', edge.stored kind (snapshots i) = some fingerprint →
        edge.stored kind (snapshots j) = some fingerprint' → fingerprint ≠ fingerprint') ∧
    ∀ edge' ≠ edge, ∀ i ≤ n, ∀ j ≤ n, ∀ fingerprint fingerprint', edge.stored kind (snapshots i) = some fingerprint →
      edge'.stored kind (snapshots j) = some fingerprint' → fingerprint ≠ fingerprint' := by
  have hrecorded := recorded_edge h edge kind
  refine ⟨fun i hi hevent before after hbefore hafter => ?_, fun i hi hevent => ?_, fun i hi => isSome_ids hrecorded hi,
    fun i j hij hj hholds => ids_eq hrecorded hij hj hholds, fun horder i m j him hmj hj hgap fingerprint fingerprint'
    hid hid' => ids_ne hrecorded (fun k l => drawn_ne hsha256 h horder) him hmj hj hgap hid hid',
    fun edge' hedge i hi j hj fingerprint fingerprint' hid hid' heq => ?_⟩
  · rw [reported_step (stored_snapshot h (Nat.le_of_lt hi)) (h.step i hi) edge kind]
    unfold WindowEdge.occurs WindowEdge.report WindowEdge.stored
    rw [hbefore, hafter]
    rfl
  · exact (QuotaEvent.step_other (stored_snapshot h (Nat.le_of_lt hi)) (fun data hdata => hevent ⟨data, hdata⟩)
      (h.step i hi)).2.2 edge
  · obtain ⟨k, hk, ⟨data, hdata⟩, hdrawn, hholds⟩ := began hrecorded hi hid
    obtain ⟨l, hl, ⟨data', hdata'⟩, hdrawn', hholds'⟩ := began (recorded_edge h edge' kind) hj hid'
    have hatk := hholds (k + 1) (Nat.lt_succ_self k) hk
    have hatl := hholds' (l + 1) (Nat.lt_succ_self l) hl
    obtain ⟨input, hinput, -⟩ := reported_of_at h (hk.trans_le hi) hdata hatk
    obtain ⟨input', hinput', -⟩ := reported_of_at h (hl.trans_le hj) hdata' hatl
    rw [hdrawn, hdrawn', hdata, hdata', WindowEdge.drawn, WindowEdge.drawn, hinput, hinput'] at heq
    exact hedge (fresh_inj hsha256 heq).1.symm

end

/-! A window that fills up. -/

def fillingEvents : Nat → QuotaEvent
  | 0 => .refreshed
      { primary := some { kind := .primary, availablePercent := some 4000, observedAtMs := 1000 }, observedAtMs := 1000 }
  | _ => .refreshed
      { primary := some { kind := .primary, availablePercent := some 10000, observedAtMs := 2000 }, observedAtMs := 2000 }

def fillingSnapshots : Nat → QuotaSnapshot
  | 0 => {}
  | n + 1 => ((fillingEvents n).step id (fillingSnapshots n)).getD {}

theorem filling_history : QuotaHistory id fillingEvents fillingSnapshots 2 where
  start := rfl
  step i hi := by
    interval_cases i
    · decide +kernel
    · decide +kernel

theorem edges_reported_once_filling :
    ∃ before after, (fillingSnapshots 1).window .primary = some before ∧
      (fillingSnapshots 2).window .primary = some after ∧
      ((fillingEvents 1).reported id (fillingSnapshots 1) .full).filter
          (fun transition => transition.windowKind = .primary) =
        if !before.isFullyAvailable && after.isFullyAvailable then
          ((WindowEdge.full.stored .primary (fillingSnapshots 2)).map fun fingerprint =>
            QuotaTransition.mk .primary fingerprint after.observedAtMs).toList
        else [] := by
  obtain ⟨before, hbefore⟩ := Option.isSome_iff_exists.mp
    (by decide +kernel : ((fillingSnapshots 1).window .primary).isSome = true)
  obtain ⟨after, hafter⟩ := Option.isSome_iff_exists.mp
    (by decide +kernel : ((fillingSnapshots 2).window .primary).isSome = true)
  exact ⟨before, after, hbefore, hafter,
    (edges_reported_once Function.injective_id filling_history .primary .full).1 1 (by decide) ⟨_, rfl⟩ before after
      hbefore hafter⟩

/-- It is reported. -/
example : ((fillingEvents 1).reported id (fillingSnapshots 1) .full).map (·.transitionedAtMs) = [2000] := by
  decide +kernel

end Zenith.Quota
