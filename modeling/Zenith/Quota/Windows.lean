import Mathlib

/-!
# Quota windows and snapshots

The data of `quota/windows.rs` that the scheduler and the runtime read: the two rolling windows
of an account, its supplemental windows, and the snapshot that holds them. Times are Unix
milliseconds; availability is in basis points.
-/

namespace Zenith.Quota

inductive QuotaWindowKind
  | primary
  | secondary
deriving DecidableEq, Repr

/-- One rolling quota window as last observed. -/
structure QuotaWindow where
  kind : QuotaWindowKind
  providerCycleId : Option String := none
  windowStartMs : Option Nat := none
  availableBasisPoints : Option Nat := none
  explicitlyFull : Option Bool := none
  resetAtMs : Option Nat := none
  windowMinutes : Option Nat := none
  observedAtMs : Nat
  fullTransitionFingerprint : Option String := none
  exhaustionTransitionFingerprint : Option String := none
deriving DecidableEq, Repr

/-- The two-speed service tier of the pool. -/
inductive DefaultServiceTier
  | standard
  | fast
deriving DecidableEq, Repr

structure SupplementalQuotaWindow where
  id : String
  label : String
  serviceTier : Option DefaultServiceTier
  window : QuotaWindow
deriving DecidableEq, Repr

structure QuotaErrorState where
  code : String
  occurredAtMs : Nat
deriving DecidableEq, Repr

/-- What is known about an account's quota. -/
structure QuotaSnapshot where
  primary : Option QuotaWindow := none
  secondary : Option QuotaWindow := none
  supplemental : List SupplementalQuotaWindow := []
  limitReached : Bool := false
  resetCreditsAvailable : Option Nat := none
  directBalanceMicroUsd : Option Nat := none
  updatedAtMs : Option Nat := none
  error : Option QuotaErrorState := none
deriving DecidableEq, Repr

/-- The rolling windows that are present, the primary one first. -/
def QuotaSnapshot.windows (quota : QuotaSnapshot) : List QuotaWindow :=
  quota.primary.toList ++ quota.secondary.toList

/-- The rolling window of one kind. -/
def QuotaSnapshot.window (quota : QuotaSnapshot) : QuotaWindowKind → Option QuotaWindow
  | .primary => quota.primary
  | .secondary => quota.secondary

/-- A window became full, or was exhausted: which window, under which fingerprint, and when. -/
structure QuotaTransition where
  windowKind : QuotaWindowKind
  fingerprint : String
  transitionedAtMs : Nat
deriving DecidableEq, Repr

/-- The reset time of the window with the least quota left, the earlier reset breaking ties. A
window without a known availability or reset time does not limit. -/
def QuotaSnapshot.limitingResetAtMs (quota : QuotaSnapshot) : Option Nat :=
  let limits := quota.windows.filterMap fun window =>
    match window.availableBasisPoints, window.resetAtMs with
    | some available, some resetAtMs => some (available, resetAtMs)
    | _, _ => none
  match limits with
  | [] => none
  | [(_, resetAtMs)] => some resetAtMs
  | (available, resetAtMs) :: (available', resetAtMs') :: _ =>
    -- `min_by_key` keeps the first of two equal keys, which here carry the same reset time.
    if available' < available ∨ (available' = available ∧ resetAtMs' < resetAtMs) then
      some resetAtMs'
    else some resetAtMs

end Zenith.Quota
