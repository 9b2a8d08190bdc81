import Mathlib
import Zenith.Automations.QuotaWake
import Zenith.Quota.Transitions

/-!
# Quota refreshes

`QuotaRefreshData::normalize` of `quota/refresh.rs` and `reduce_account_quota` of `accounts/quota_state.rs`: how the result
of a refresh becomes the stored quota, and which transitions it reports. Of an account only the quota is kept here. Its
subscription, its health and its last error, which the reducer also gives, are not read by the quota.

`reduceAccountQuota_updated` and `reduceAccountQuota_failed` say what a refresh does; `mem_edges` says which transitions
come of it.
-/

namespace Zenith.Quota

open Zenith.Tables Zenith.Text

/-! ## Refresh results -/

def maxSupplementalWindows : Nat := 32

structure SupplementalQuotaWindowInput where
  id : String
  label : String
  serviceTier : Option DefaultServiceTier := none
  window : QuotaWindowInput

structure QuotaRefreshData where
  primary : Option QuotaWindowInput := none
  secondary : Option QuotaWindowInput := none
  supplemental : List SupplementalQuotaWindowInput := []
  limitReached : Bool := false
  resetCreditsAvailable : Option UInt32 := none
  directBalanceMicroUsd : Option UInt64 := none
  observedAtMs : UInt64

structure QuotaRefreshFailure where
  code : String
  retryable : Bool
deriving DecidableEq, Repr

/-- The window of a slot as it is reported. -/
def QuotaRefreshData.window (data : QuotaRefreshData) : QuotaWindowKind → Option QuotaWindowInput
  | .primary => data.primary
  | .secondary => data.secondary

/-- The identifier of a supplemental window. -/
def validSupplementalId (id : String) : Bool :=
  id ≠ "" && id.utf8ByteSize ≤ 64 &&
    id.toList.all fun c => c.isAlphanum || c = ':' || c = '-' || c = '_' || c = '.'

def validSupplementalLabel (label : String) : Bool :=
  label ≠ "" && label.utf8ByteSize ≤ 128 && !label.toList.any isControl

section
variable (sha256 : List UInt8 → List UInt8)

def normalizeWindow (expected : QuotaWindowKind) (previous : Option QuotaWindow) :
    Option QuotaWindowInput → Except QuotaNormalizationError (Option QuotaWindow)
  | none => .ok none
  | some input =>
    if input.kind ≠ expected then .error .mismatchedWindowKind
    else (QuotaWindow.normalize sha256 input previous).map fun window =>
      if window.isEmptyProviderPlaceholder then none else some window

/-- `seen` are the identifiers of the windows before. -/
def normalizeSupplementalWindows (previous : List SupplementalQuotaWindow) :
    List String → List SupplementalQuotaWindowInput → Except QuotaNormalizationError (List SupplementalQuotaWindow)
  | _, [] => .ok []
  | seen, input :: inputs => do
    let id := trim input.id
    let label := trim input.label
    if !validSupplementalId id || id ∈ seen || !validSupplementalLabel label then
      .error .invalidSupplementalWindow
    else
      let stored := (previous.find? fun candidate => candidate.id = id).map (·.window)
      let window ← QuotaWindow.normalize sha256 input.window stored
      let rest ← normalizeSupplementalWindows previous (id :: seen) inputs
      .ok ({ id, label, serviceTier := input.serviceTier, window } :: rest)

def normalizeSupplemental (inputs : List SupplementalQuotaWindowInput) (previous : List SupplementalQuotaWindow) :
    Except QuotaNormalizationError (List SupplementalQuotaWindow) :=
  if maxSupplementalWindows < inputs.length then .error .invalidSupplementalWindow
  else normalizeSupplementalWindows sha256 previous [] inputs

def QuotaRefreshData.normalize (data : QuotaRefreshData) (previous : QuotaSnapshot) :
    Except QuotaNormalizationError QuotaSnapshot := do
  let primary ← normalizeWindow sha256 .primary previous.primary data.primary
  let secondary ← normalizeWindow sha256 .secondary previous.secondary data.secondary
  let supplemental ← normalizeSupplemental sha256 data.supplemental previous.supplemental
  .ok
    { primary
      secondary
      supplemental
      limitReached := data.limitReached
      resetCreditsAvailable := data.resetCreditsAvailable.map (·.toNat)
      directBalanceMicroUsd := data.directBalanceMicroUsd.map (·.toNat)
      updatedAtMs := some data.observedAtMs.toNat
      error := none }

/-! ## The reducer -/

inductive AccountQuotaOutcome
  | updated (transitions : List QuotaTransition)
  | failed (code : String) (retryable : Bool)
deriving DecidableEq, Repr

/-- `AccountQuotaUpdate`, with the quota. -/
structure QuotaUpdate where
  quota : QuotaSnapshot
  outcome : AccountQuotaOutcome
  exhaustionTransitions : List QuotaTransition
deriving DecidableEq, Repr

/-- The transitions of an edge between two snapshots. -/
def WindowEdge.transitions (edge : WindowEdge) (quota previous : QuotaSnapshot) : List QuotaTransition :=
  [QuotaWindowKind.primary, .secondary].filterMap fun kind =>
    (quota.window kind).bind fun window => edge.transitionFrom sha256 window (previous.window kind)

def reduceAccountQuota (previousQuota : QuotaSnapshot) (result : Except QuotaRefreshFailure QuotaRefreshData)
    (failureObservedAtMs : Nat) : Except QuotaNormalizationError QuotaUpdate :=
  match result with
  | .ok data => do
    let quota ← data.normalize sha256 previousQuota
    .ok
      { quota
        outcome := .updated (WindowEdge.full.transitions sha256 quota previousQuota)
        exhaustionTransitions := WindowEdge.exhausted.transitions sha256 quota previousQuota }
  | .error failure =>
    .ok
      { quota := { previousQuota with error := some ⟨Automations.safeErrorCode failure.code, failureObservedAtMs⟩ }
        outcome := .failed failure.code failure.retryable
        exhaustionTransitions := [] }

end

/-- The transitions of an edge that an update reports. -/
def QuotaUpdate.reported (update : QuotaUpdate) : WindowEdge → List QuotaTransition
  | .full =>
    match update.outcome with
    | .updated transitions => transitions
    | .failed _ _ => []
  | .exhausted => update.exhaustionTransitions

/-! ## What a refresh does -/

section
variable {sha256 : List UInt8 → List UInt8}

/-- A stored window comes of a window that was reported. -/
theorem normalizeWindow_some {expected : QuotaWindowKind} {previous : Option QuotaWindow}
    {reported : Option QuotaWindowInput} {window : QuotaWindow}
    (h : normalizeWindow sha256 expected previous reported = .ok (some window)) :
    ∃ input, reported = some input ∧ input.kind = expected ∧
      QuotaWindow.normalize sha256 input previous = .ok window := by
  cases reported with
  | none => exact nomatch h
  | some input =>
    rw [normalizeWindow] at h
    split at h
    case isTrue => exact nomatch h
    case isFalse hkind =>
      refine ⟨input, rfl, not_not.mp hkind, ?_⟩
      cases hwindow : QuotaWindow.normalize sha256 input previous with
      | error error =>
        rw [hwindow] at h
        exact nomatch h
      | ok normalized =>
        rw [hwindow] at h
        have hkept := Except.ok.inj h
        dsimp only at hkept
        split at hkept
        case isTrue => exact nomatch hkept
        case isFalse => rw [Option.some.inj hkept]

variable {data : QuotaRefreshData}

theorem normalize_window {previous quota : QuotaSnapshot}
    (h : data.normalize sha256 previous = .ok quota) (kind : QuotaWindowKind) :
    normalizeWindow sha256 kind (previous.window kind) (data.window kind) = .ok (quota.window kind) := by
  obtain ⟨primary, hprimary, h⟩ := bind_eq_ok.mp h
  obtain ⟨secondary, hsecondary, h⟩ := bind_eq_ok.mp h
  obtain ⟨supplemental, -, h⟩ := bind_eq_ok.mp h
  obtain rfl := Except.ok.inj h
  cases kind with
  | primary => exact hprimary
  | secondary => exact hsecondary

variable {previous : QuotaSnapshot} {failureObservedAtMs : Nat} {update : QuotaUpdate}

theorem reduceAccountQuota_updated
    (h : reduceAccountQuota sha256 previous (.ok data) failureObservedAtMs = .ok update) :
    data.normalize sha256 previous = .ok update.quota ∧
      ∀ edge, update.reported edge = edge.transitions sha256 update.quota previous := by
  obtain ⟨quota, hquota, h⟩ := bind_eq_ok.mp h
  obtain rfl := Except.ok.inj h
  exact ⟨hquota, fun edge => by cases edge <;> rfl⟩

/-- A failed refresh keeps the windows and reports nothing. -/
theorem reduceAccountQuota_failed {failure : QuotaRefreshFailure}
    (h : reduceAccountQuota sha256 previous (.error failure) failureObservedAtMs = .ok update) :
    update.quota.withoutError = previous.withoutError ∧ ∀ edge, update.reported edge = [] := by
  obtain rfl := Except.ok.inj h
  exact ⟨rfl, fun edge => by cases edge <;> rfl⟩

theorem window_withoutError (quota : QuotaSnapshot) (kind : QuotaWindowKind) :
    quota.withoutError.window kind = quota.window kind := by
  cases kind <;> rfl

/-- A stored window of a refresh. -/
theorem window_of_refresh (h : reduceAccountQuota sha256 previous (.ok data) failureObservedAtMs = .ok update)
    {kind : QuotaWindowKind} {window : QuotaWindow} (hwindow : update.quota.window kind = some window) :
    ∃ input, data.window kind = some input ∧ input.kind = kind ∧
      QuotaWindow.normalize sha256 input (previous.window kind) = .ok window := by
  have hslot := normalize_window (reduceAccountQuota_updated h).1 kind
  rw [hwindow] at hslot
  exact normalizeWindow_some hslot

/-- Each window gives one transition at most. -/
theorem filter_filterMap_kinds {found : QuotaWindowKind → Option QuotaTransition}
    (hfound : ∀ kind transition, found kind = some transition → transition.windowKind = kind) (kind : QuotaWindowKind) :
    ([QuotaWindowKind.primary, .secondary].filterMap found).filter (fun transition => transition.windowKind = kind) =
      (found kind).toList := by
  have hone : ∀ kind', (found kind').toList.filter (fun transition => transition.windowKind = kind) =
      if kind' = kind then (found kind).toList else [] := by
    intro kind'
    cases htransition : found kind' with
    | none =>
      split
      case isTrue heq =>
        rw [← heq, htransition]
        rfl
      case isFalse => rfl
    | some transition =>
      have hkind := hfound kind' transition htransition
      split
      case isTrue heq =>
        rw [← heq, htransition]
        exact List.filter_eq_self.mpr fun _ hmem => by
          rw [List.mem_singleton.mp hmem, hkind]
          exact decide_eq_true rfl
      case isFalse hne =>
        exact List.filter_eq_nil_iff.mpr fun _ hmem => by
          rw [List.mem_singleton.mp hmem, hkind, decide_eq_false hne]
          exact Bool.false_ne_true
  have hlist : [QuotaWindowKind.primary, .secondary].filterMap found =
      (found .primary).toList ++ (found .secondary).toList := by
    cases hprimary : found .primary <;> cases hsecondary : found .secondary <;> simp [hprimary, hsecondary]
  rw [hlist, List.filter_append, hone, hone]
  cases kind with
  | primary => rw [if_pos rfl, if_neg nofun, List.append_nil]
  | secondary => rw [if_neg nofun, if_pos rfl, List.nil_append]

/-- The edge of a window between two snapshots. -/
def WindowEdge.occurs (edge : WindowEdge) (quota previous : QuotaSnapshot) (kind : QuotaWindowKind) : Bool :=
  (previous.window kind).any (fun stored => !edge.holds stored) && (quota.window kind).any edge.holds

/-- What is reported of it: the stored fingerprint. -/
def WindowEdge.report (edge : WindowEdge) (quota : QuotaSnapshot) (kind : QuotaWindowKind) : Option QuotaTransition :=
  (quota.window kind).bind fun window =>
    (edge.fingerprint window).map fun fingerprint => ⟨kind, fingerprint, window.observedAtMs⟩

/-- Each edge is reported when it occurs, and once. -/
theorem filter_transitions {edge : WindowEdge} {quota previous : QuotaSnapshot}
    (hkinds : ∀ kind window, quota.window kind = some window → window.kind = kind)
    (hkinds' : ∀ kind window, previous.window kind = some window → window.kind = kind)
    (hstored : ∀ kind window, quota.window kind = some window → (edge.fingerprint window).isSome = edge.holds window)
    (kind : QuotaWindowKind) :
    (edge.transitions sha256 quota previous).filter (fun transition => transition.windowKind = kind) =
      if edge.occurs quota previous kind then (edge.report quota kind).toList else [] := by
  have hfound : ∀ kind, ((quota.window kind).bind fun window =>
      edge.transitionFrom sha256 window (previous.window kind)) =
      if edge.occurs quota previous kind then edge.report quota kind else none := by
    intro kind
    unfold WindowEdge.occurs WindowEdge.report
    cases hwindow : quota.window kind with
    | none =>
      rw [Option.bind_none, Option.bind_none]
      exact (ite_self none).symm
    | some window =>
      rw [Option.bind_some, Option.bind_some, Option.any_some]
      cases hprevious : previous.window kind with
      | none => cases edge <;> rfl
      | some stored =>
        have hkind := hkinds kind window hwindow
        rw [transitionFrom_eq edge (hstored kind window hwindow) ((hkinds' kind stored hprevious).trans hkind.symm),
          Option.any_some, hkind]
  unfold WindowEdge.transitions
  rw [filter_filterMap_kinds ?_ kind, hfound]
  · split <;> rfl
  · intro kind transition htransition
    rw [hfound] at htransition
    split at htransition
    case isTrue =>
      obtain ⟨window, -, hreport⟩ := Option.bind_eq_some_iff.mp htransition
      obtain ⟨fingerprint, -, rfl⟩ := Option.map_eq_some_iff.mp hreport
      rfl
    case isFalse => exact nomatch htransition

end

end Zenith.Quota
