import Mathlib
import Zenith.Quota.ObservedIdentity

/-!
# Headers of late responses

Responses end in any order, so the headers that `mergeCodexQuotaHeaders` gets may be older than the stored windows.
Every window is merged by its own age (`late_headers_relax_nothing`). Two things are not: a placeholder in place of the
secondary window is removed by any headers, and the limit of the snapshot is lifted by a new cycle that an observation
starts, also by one that is too old to be merged (`late_headers_relax`).
-/

namespace Zenith.Quota

open Zenith.Tables

/-! ## What late headers keep -/

section
variable (previous merged : QuotaSnapshot) (headers : CodexHeaders)

/-- Windows that were observed after the headers stay. -/
def KeepsNewerWindows : Prop :=
  ∀ kind stored, previous.window kind = some stored → headers.observedAtMs < stored.observedAtMs →
    merged.window kind = some stored

/-- The observed window is stored in place of the one before, whose reset time and length fill in what it lacks. -/
def ReplacedBy (kind : QuotaWindowKind) (stored observed : QuotaWindow) : Prop :=
  merged.window kind = some
    { observed with
      resetAtMs := observed.resetAtMs.or stored.resetAtMs
      windowMinutes := observed.windowMinutes.or stored.windowMinutes }

/-- A limit is lifted by a window that was replaced in a new cycle. -/
def LiftsLimitInNewCycle : Prop :=
  previous.limitReached = true → merged.limitReached = false → ∃ kind stored observed,
    previous.window kind = some stored ∧ headers.window kind = some observed ∧
      stored.observedAtMs ≤ observed.observedAtMs ∧ isNewCycle (some stored) observed = true ∧
      ReplacedBy merged kind stored observed

/-- A window that is in no new cycle gains nothing, and keeps what it has if the headers do not tell. -/
def GainsInNewCycle : Prop :=
  ∀ kind stored window, previous.window kind = some stored → merged.window kind = some window →
    ((headers.window kind).all fun observed => !isNewCycle (some stored) observed) = true →
      (∀ available, stored.availableBasisPoints = some available →
        ∃ available' ≤ available, window.availableBasisPoints = some available') ∧
      (((headers.window kind).all fun observed => observed.availableBasisPoints.isNone) = true →
        window.availableBasisPoints = stored.availableBasisPoints)

end

section
variable {sha256 : List UInt8 → List UInt8} {previous merged : QuotaSnapshot} {values : HeaderValues} {observedAtMs : UInt64}

theorem observedAtMs_of_headers {kind : QuotaWindowKind} {observed : QuotaWindow}
    (h : (values.parse sha256 observedAtMs).window kind = some observed) : observed.observedAtMs = observedAtMs.toNat := by
  obtain ⟨headers, hnormalized⟩ := normalize_of_headers h
  exact (normalize_fields hnormalized).2.1

variable {headers : CodexHeaders}

theorem observe_of_merge (h : mergeCodexQuotaHeaders previous headers = some merged) :
    previous.observe headers = merged := by
  rw [QuotaSnapshot.observe, h, Option.getD_some]

/-- Only a placeholder that headers do not report is removed. -/
theorem window_removed (h : mergeCodexQuotaHeaders previous headers = some merged)
    {kind : QuotaWindowKind} {stored : QuotaWindow} (hstored : previous.window kind = some stored) :
    merged.window kind = none ↔
      headers.window kind = none ∧ kind = .secondary ∧ stored.isEmptyProviderPlaceholder = true := by
  rw [window_merge h kind, Option.or_eq_none_iff, Option.map_eq_none_iff]
  refine and_congr_right fun _ => ?_
  cases kind with
  | primary => exact ⟨fun hnone => (by cases hstored.symm.trans hnone), fun hsecondary => (by cases hsecondary.1)⟩
  | secondary =>
    have hsecondary : previous.secondary = some stored := hstored
    rw [QuotaSnapshot.keptWindow, hsecondary, Option.any_some]
    cases stored.isEmptyProviderPlaceholder with
    | false => exact ⟨(by rintro ⟨⟩), fun hplaceholder => (by cases hplaceholder.2)⟩
    | true => exact ⟨fun _ => ⟨rfl, rfl⟩, fun _ => rfl⟩

theorem mergeAvailable_le {available : Nat} (observed : Option Nat) :
    ∃ available' ≤ available, mergeAvailable (some available) observed = some available' := by
  cases observed with
  | none => exact ⟨available, le_rfl, rfl⟩
  | some reported => exact ⟨min available reported, Nat.min_le_left available reported, rfl⟩

/-- In one cycle a merged window has the least availability. -/
theorem availableBasisPoints_merge {stored observed : QuotaWindow} (hcycle : isNewCycle (some stored) observed = false)
    (hnewer : stored.observedAtMs ≤ observed.observedAtMs) :
    (mergeWindow (some stored) observed).availableBasisPoints =
      mergeAvailable stored.availableBasisPoints observed.availableBasisPoints := by
  rw [(mergeWindow_newer hnewer).1, hcycle]
  rfl

theorem gains_in_new_cycle (h : mergeCodexQuotaHeaders previous headers = some merged) :
    GainsInNewCycle previous merged headers := by
  intro kind stored window hstored hwindow hcycle
  rw [← observe_of_merge h] at hwindow
  rcases window_observe hwindow with hsame | ⟨-, -, hnone, -⟩ | ⟨stored', observed, hstored', hheaders, hnewer, rfl⟩
  · obtain rfl := Option.some.inj (hsame.symm.trans hstored)
    exact ⟨fun available havailable => ⟨available, le_rfl, havailable⟩, fun _ => rfl⟩
  · exact nomatch hnone.symm.trans hstored
  · obtain rfl := Option.some.inj (hstored'.symm.trans hstored)
    rw [hheaders, Option.all_some, Bool.not_eq_true'] at hcycle
    rw [availableBasisPoints_merge hcycle hnewer, hheaders, Option.all_some]
    refine ⟨fun available havailable => ?_, fun hnone => ?_⟩
    · rw [havailable]
      exact mergeAvailable_le observed.availableBasisPoints
    · rw [Option.isNone_iff_eq_none.mp hnone]
      cases stored'.availableBasisPoints <;> rfl

/-- A lifted limit goes with an observation that starts a new cycle. -/
theorem new_cycle_of_lifted (h : mergeCodexQuotaHeaders previous headers = some merged)
    (hbefore : previous.limitReached = true) (hafter : merged.limitReached = false) :
    ∃ kind observed, headers.window kind = some observed ∧ isNewCycle (previous.window kind) observed = true := by
  unfold mergeCodexQuotaHeaders at h
  dsimp only at h
  split at h
  case isTrue =>
    split at h
    case isTrue =>
      obtain rfl := Option.some.inj h
      exact nomatch hbefore.symm.trans hafter
    case isFalse => exact nomatch h
  case isFalse =>
    obtain rfl := Option.some.inj h
    obtain ⟨-, hcleared⟩ := Bool.or_eq_false_iff.mp hafter
    rw [hbefore, Bool.true_and, Bool.not_eq_false'] at hcleared
    rcases Bool.or_eq_true_iff.mp hcleared with hcycle | hcycle
    · obtain ⟨observed, hobserved, hcycle⟩ := (Option.any_eq_true _ _).mp hcycle
      exact ⟨.primary, observed, hobserved, hcycle⟩
    · obtain ⟨observed, hobserved, hcycle⟩ := (Option.any_eq_true _ _).mp hcycle
      exact ⟨.secondary, observed, hobserved, hcycle⟩

/-- Merging headers of any age: a window that was observed later stays, a window gains only in a new cycle, and what
headers do not report stays. A placeholder in place of the secondary window is removed. The limit is lifted by a window
that was replaced in a new cycle, if no observation that starts one is older than its window. -/
theorem late_headers_relax_nothing (h : mergeCodexQuotaHeaders previous (values.parse sha256 observedAtMs) = some merged) :
    (∀ kind stored, previous.window kind = some stored →
      (merged.window kind = none ↔ (values.parse sha256 observedAtMs).window kind = none ∧ kind = .secondary ∧
        stored.isEmptyProviderPlaceholder = true) ∧
      ∀ window, merged.window kind = some window → observedAtMs.toNat < stored.observedAtMs → window = stored) ∧
    GainsInNewCycle previous merged (values.parse sha256 observedAtMs) ∧
    ((∀ kind stored observed, previous.window kind = some stored →
        (values.parse sha256 observedAtMs).window kind = some observed → isNewCycle (some stored) observed = true →
        stored.observedAtMs ≤ observed.observedAtMs) →
      LiftsLimitInNewCycle previous merged (values.parse sha256 observedAtMs)) ∧
    merged.reported = previous.reported ∧
    ∀ updatedAtMs, previous.updatedAtMs = some updatedAtMs →
      ∃ updatedAtMs' ≥ updatedAtMs, merged.updatedAtMs = some updatedAtMs' := by
  refine ⟨fun kind stored hstored => ⟨window_removed h hstored, fun window hwindow hlate => ?_⟩, gains_in_new_cycle h,
    fun hages hbefore hafter => ?_, ?_, fun updatedAtMs hupdated => ?_⟩
  · rw [← observe_of_merge h] at hwindow
    rcases window_observe hwindow with hsame | ⟨-, -, hnone, -⟩ | ⟨stored', observed, hstored', hheaders, hnewer, -⟩
    · exact Option.some.inj (hsame.symm.trans hstored)
    · exact nomatch hnone.symm.trans hstored
    · obtain rfl := Option.some.inj (hstored'.symm.trans hstored)
      exact absurd (observedAtMs_of_headers hheaders ▸ hnewer) (Nat.not_le.mpr hlate)
  · obtain ⟨kind, observed, hheaders, hcycle⟩ := new_cycle_of_lifted h hbefore hafter
    cases hstored : previous.window kind with
    | none =>
      rw [hstored] at hcycle
      exact nomatch hcycle
    | some stored =>
      rw [hstored] at hcycle
      have hnewer := hages kind stored observed hstored hheaders hcycle
      refine ⟨kind, stored, observed, hstored, hheaders, hnewer, hcycle, ?_⟩
      rw [ReplacedBy, window_merge h kind, hheaders, hstored, Option.map_some, Option.some_or, mergeWindow,
        if_neg (not_lt.mpr hnewer), if_pos hcycle]
  · rw [← observe_of_merge h]
    exact reported_observe previous _
  · rcases merge_rest h with ⟨hsame, -, -⟩ | ⟨hmax, -⟩
    · exact ⟨updatedAtMs, le_rfl, hsame.trans hupdated⟩
    · rw [hupdated] at hmax
      exact ⟨_, le_max_left _ _, hmax⟩

end

/-! A placeholder, and a limit, that late headers remove. -/

def placeholderQuota : QuotaSnapshot where
  secondary := some
    { kind := .secondary, availableBasisPoints := some 10000, windowMinutes := some 0, resetAtMs := some 1000,
      observedAtMs := 5000 }

def limitedQuota : QuotaSnapshot where
  primary := some
    { kind := .primary, availableBasisPoints := some 5000, resetAtMs := some 601000, observedAtMs := 2000 }
  limitReached := true

def lateHeaders : HeaderValues := { primary := { usedPercent := some 1000, resetAfterSeconds := some 3600 } }

theorem late_headers_relax_nothing_limited :
    GainsInNewCycle limitedQuota (limitedQuota.observe (lateHeaders.parse id 3000)) (lateHeaders.parse id 3000) := by
  have hmerged : mergeCodexQuotaHeaders limitedQuota (lateHeaders.parse id 3000) =
      some (limitedQuota.observe (lateHeaders.parse id 3000)) := by decide +kernel
  exact (late_headers_relax_nothing hmerged).2.1

/-- Headers of 1000 remove a window of 5000, and lift a limit without replacing a window. -/
theorem late_headers_relax :
    (¬∀ previous merged, mergeCodexQuotaHeaders previous (lateHeaders.parse id 1000) = some merged →
      KeepsNewerWindows previous merged (lateHeaders.parse id 1000)) ∧
    ¬∀ previous merged, mergeCodexQuotaHeaders previous (lateHeaders.parse id 1000) = some merged →
      LiftsLimitInNewCycle previous merged (lateHeaders.parse id 1000) := by
  refine ⟨fun h => ?_, fun h => ?_⟩
  · have hkept := h placeholderQuota _ (Option.some_get (by decide +kernel)).symm .secondary _ rfl (by decide +kernel)
    exact absurd hkept (by decide +kernel)
  · obtain ⟨kind, stored, observed, hstored, hheaders, hnewer, -⟩ :=
      h limitedQuota _ (Option.some_get (by decide +kernel)).symm rfl (by decide +kernel)
    rw [observedAtMs_of_headers hheaders] at hnewer
    cases kind with
    | primary =>
      obtain rfl := Option.some.inj hstored
      exact absurd hnewer (by decide)
    | secondary => exact nomatch hstored

end Zenith.Quota
