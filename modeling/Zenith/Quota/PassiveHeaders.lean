import Zenith.Lib.Tables
import Zenith.Quota.Windows

/-!
# Quota seen in response headers

`providers/chatgpt/passive_quota.rs`: the headers of a response report one or both rolling windows of an account, and
`mergeCodexQuotaHeaders` puts them into what is known of its quota. Within one cycle a window never gains quota.

Everything else of the quota stays (`reported_observe`), so a quota that was merged with headers, in any number, still
tells the reset credits, the supplemental windows and the balance of the refresh it started from. `Derived` is such a
quota; it ignores the error of a failed refresh, which merging does not read.

The windows are given as they were parsed from the header values.
-/

namespace Zenith.Quota

open Zenith.Tables

def resetCycleSkewMs : Nat := 60000

/-- The windows that the headers of a response report. -/
structure CodexHeaders where
  primary : Option QuotaWindow := none
  secondary : Option QuotaWindow := none
  observedAtMs : Nat
deriving DecidableEq, Repr

/-! ## Merging -/

def QuotaWindow.isEmptyProviderPlaceholder (window : QuotaWindow) : Bool :=
  window.kind = .secondary && window.availableBasisPoints = some 10000 && window.windowMinutes.getD 0 = 0 &&
    window.resetAtMs.all fun resetAtMs => decide (resetAtMs ≤ window.observedAtMs)

def isNewCycle (previous : Option QuotaWindow) (observed : QuotaWindow) : Bool :=
  (previous.bind (·.resetAtMs)).any fun previousReset =>
    decide (previousReset ≤ observed.observedAtMs) ||
      observed.resetAtMs.any fun reset => decide (satAdd 64 previousReset resetCycleSkewMs < reset)

def mergeAvailable : Option Nat → Option Nat → Option Nat
  | some previous, some observed => some (min previous observed)
  | previous, none => previous
  | none, observed => observed

def mergeWindow (previous : Option QuotaWindow) (observed : QuotaWindow) : QuotaWindow :=
  match previous with
  | none => observed
  | some previous =>
    if observed.observedAtMs < previous.observedAtMs then previous
    else
      { observed with
        availableBasisPoints :=
          if isNewCycle (some previous) observed then observed.availableBasisPoints
          else mergeAvailable previous.availableBasisPoints observed.availableBasisPoints
        resetAtMs := observed.resetAtMs.or previous.resetAtMs
        windowMinutes := observed.windowMinutes.or previous.windowMinutes }

/-- A placeholder in place of the secondary window is removed, whatever the headers say. -/
def mergeCodexQuotaHeaders (previous : QuotaSnapshot) (headers : CodexHeaders) : Option QuotaSnapshot :=
  let removedPlaceholder := previous.secondary.any (·.isEmptyProviderPlaceholder)
  let merged := { previous with secondary := if removedPlaceholder then none else previous.secondary }
  if headers.primary.isNone && headers.secondary.isNone then if removedPlaceholder then some merged else none
  else
    let newCycle := headers.primary.any (isNewCycle previous.primary) || headers.secondary.any (isNewCycle previous.secondary)
    let primary := (headers.primary.map (mergeWindow previous.primary)).or merged.primary
    let secondary := (headers.secondary.map (mergeWindow previous.secondary)).or merged.secondary
    let observedLimit := (primary.toList ++ secondary.toList).any fun window => decide (window.availableBasisPoints = some 0)
    some
      { merged with
        primary
        secondary
        limitReached := observedLimit || (previous.limitReached && !newCycle)
        updatedAtMs := some (max (previous.updatedAtMs.getD 0) headers.observedAtMs)
        error := none }

/-! ## The merged windows -/

def CodexHeaders.window (headers : CodexHeaders) : QuotaWindowKind → Option QuotaWindow
  | .primary => headers.primary
  | .secondary => headers.secondary

/-- A window that headers do not report stays, unless it is a placeholder. -/
def QuotaSnapshot.keptWindow (quota : QuotaSnapshot) : QuotaWindowKind → Option QuotaWindow
  | .primary => quota.primary
  | .secondary => if quota.secondary.any (·.isEmptyProviderPlaceholder) then none else quota.secondary

variable {previous merged : QuotaSnapshot} {headers : CodexHeaders}

theorem window_merge (h : mergeCodexQuotaHeaders previous headers = some merged) (kind : QuotaWindowKind) :
    merged.window kind =
      ((headers.window kind).map (mergeWindow (previous.window kind))).or (previous.keptWindow kind) := by
  unfold mergeCodexQuotaHeaders at h
  dsimp only at h
  split at h
  case isTrue hnone =>
    obtain ⟨hprimary, hsecondary⟩ := Bool.and_eq_true_iff.mp hnone
    rw [Option.isNone_iff_eq_none] at hprimary hsecondary
    split at h
    case isFalse => exact nomatch h
    case isTrue hplaceholder =>
      obtain rfl := Option.some.inj h
      cases kind with
      | primary =>
        rw [CodexHeaders.window, hprimary]
        rfl
      | secondary =>
        rw [CodexHeaders.window, hsecondary, QuotaSnapshot.keptWindow, if_pos hplaceholder]
        rfl
  case isFalse =>
    obtain rfl := Option.some.inj h
    cases kind <;> rfl

/-- What merging does with the rest: headers that report a window are noted, with their time. -/
theorem merge_rest (h : mergeCodexQuotaHeaders previous headers = some merged) :
    merged.updatedAtMs = previous.updatedAtMs ∧ merged.error = previous.error ∧
        merged.limitReached = previous.limitReached ∨
      merged.updatedAtMs = some (max (previous.updatedAtMs.getD 0) headers.observedAtMs) ∧ merged.error = none := by
  unfold mergeCodexQuotaHeaders at h
  dsimp only at h
  split at h
  case isTrue =>
    split at h
    case isTrue =>
      obtain rfl := Option.some.inj h
      exact .inl ⟨rfl, rfl, rfl⟩
    case isFalse => exact nomatch h
  case isFalse =>
    obtain rfl := Option.some.inj h
    exact .inr ⟨rfl, rfl⟩

/-! ## What merging keeps -/

/-- What only a refresh reports. -/
def QuotaSnapshot.reported (quota : QuotaSnapshot) : Option Nat × List SupplementalQuotaWindow × Option Nat :=
  (quota.resetCreditsAvailable, quota.supplemental, quota.directBalanceMicroUsd)

def QuotaSnapshot.withoutError (quota : QuotaSnapshot) : QuotaSnapshot := { quota with error := none }

/-- The quota after headers; headers that say nothing change nothing. -/
def QuotaSnapshot.observe (quota : QuotaSnapshot) (headers : CodexHeaders) : QuotaSnapshot :=
  (mergeCodexQuotaHeaders quota headers).getD quota

theorem reported_observe (quota : QuotaSnapshot) (headers : CodexHeaders) :
    (quota.observe headers).reported = quota.reported := by
  unfold QuotaSnapshot.observe mergeCodexQuotaHeaders
  dsimp only
  split
  · split <;> rfl
  · rfl

theorem reported_foldl_observe (quota : QuotaSnapshot) (applied : List CodexHeaders) :
    (applied.foldl QuotaSnapshot.observe quota).reported = quota.reported := by
  induction applied generalizing quota with
  | nil => rfl
  | cons headers applied ih => exact (ih _).trans (reported_observe quota headers)

/-- Merging does not read the error of a quota. -/
theorem observe_congr {quota quota' : QuotaSnapshot} (h : quota.withoutError = quota'.withoutError) (headers : CodexHeaders) :
    (quota.observe headers).withoutError = (quota'.observe headers).withoutError := by
  have herror : ∀ quota : QuotaSnapshot,
      (quota.observe headers).withoutError = (quota.withoutError.observe headers).withoutError := by
    intro quota
    unfold QuotaSnapshot.observe mergeCodexQuotaHeaders QuotaSnapshot.withoutError
    dsimp only
    split
    · split <;> rfl
    · rfl
  rw [herror quota, herror quota', h]

/-! ## Derived quotas -/

/-- The quota is `base`, merged with some of the observed headers in their order. -/
def Derived (base : QuotaSnapshot) (observed : List CodexHeaders) (quota : QuotaSnapshot) : Prop :=
  ∃ applied : List CodexHeaders, applied.Sublist observed ∧
    quota.withoutError = (applied.foldl QuotaSnapshot.observe base).withoutError

namespace Derived

variable {base quota : QuotaSnapshot} {observed : List CodexHeaders}

theorem refl (base : QuotaSnapshot) (observed : List CodexHeaders) : Derived base observed base :=
  ⟨[], List.nil_sublist observed, rfl⟩

theorem congr (h : Derived base observed quota) {quota' : QuotaSnapshot} (heq : quota'.withoutError = quota.withoutError) :
    Derived base observed quota' := by
  obtain ⟨applied, hsublist, hquota⟩ := h
  exact ⟨applied, hsublist, heq.trans hquota⟩

theorem later (h : Derived base observed quota) (headers : CodexHeaders) : Derived base (observed ++ [headers]) quota := by
  obtain ⟨applied, hsublist, hquota⟩ := h
  exact ⟨applied, hsublist.trans (List.sublist_append_left observed [headers]), hquota⟩

theorem observe (h : Derived base observed quota) (headers : CodexHeaders) :
    Derived base (observed ++ [headers]) (quota.observe headers) := by
  obtain ⟨applied, hsublist, hquota⟩ := h
  refine ⟨applied ++ [headers], hsublist.append (List.Sublist.refl _), ?_⟩
  rw [List.foldl_append]
  exact observe_congr hquota headers

theorem reported (h : Derived base observed quota) : quota.reported = base.reported := by
  obtain ⟨applied, -, hquota⟩ := h
  calc quota.reported = quota.withoutError.reported := rfl
    _ = (applied.foldl QuotaSnapshot.observe base).withoutError.reported := congrArg QuotaSnapshot.reported hquota
    _ = base.reported := reported_foldl_observe base applied

theorem windows (h : Derived base observed quota) :
    ∃ applied : List CodexHeaders, applied.Sublist observed ∧
      ∀ kind, quota.window kind = (applied.foldl QuotaSnapshot.observe base).window kind := by
  obtain ⟨applied, hsublist, hquota⟩ := h
  refine ⟨applied, hsublist, fun kind => ?_⟩
  have hwindow : ∀ quota : QuotaSnapshot, quota.withoutError.window kind = quota.window kind := fun quota => by
    cases kind <;> rfl
  rw [← hwindow quota, hquota, hwindow]

end Derived

end Zenith.Quota
