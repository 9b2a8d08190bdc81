import Mathlib
import Zenith.Accounts.Record
import Zenith.Lib.Runs
import Zenith.Lib.Text

/-!
# The status of an account

The three reducers of `accounts/record.rs` that change the status of an account: after a use of the
account, after a failed discovery of its models, and after a successful one.

A login that is required stays required as long as no use succeeds (`requiresFreshLogin_survives`). A
block does not: `Spares` says which observations leave it, and a blocked account stays blocked through a
run exactly when all of them do (`confirmed_status_survives`). The discovery failures other than
`models_forbidden`, an unauthorized use without a refresh token, and the recovery of an account whose last
error came from a discovery all forget the block.
-/

namespace Zenith.Accounts

open Zenith.Runs Zenith.Text

namespace AccountAuthState

/-- A reused refresh token is a concurrent rotation, and needs no login. -/
def requiresFreshLogin : AccountAuthState → Bool
  | requiresReauth reason => reason ≠ .reusedRefreshToken
  | _ => false

end AccountAuthState

structure AccountUsageState where
  authState : AccountAuthState := .unknown
  health : AccountHealthState := .unknown
  lastErrorCode : Option String := none
  lastUsedAtMs : Option Nat := none
deriving DecidableEq, Repr

/-! ## Discovery of models -/

def applyModelDiscoveryFailure (state : AccountUsageState) (code : String) (retryable : Bool) :
    AccountUsageState :=
  let state := { state with lastErrorCode := some code }
  if code ∈ ["models_unauthorized", "models_invalid_access_token", "models_invalid_account_id"] then
    { state with
      authState := if state.authState.requiresFreshLogin then state.authState else .error
      health := .unhealthy }
  else if code = "models_forbidden" then
    if state.health = .blocked ∨ state.health = .unhealthy then state
    else { state with health := .degraded }
  else { state with health := if retryable then .degraded else .unhealthy }

/-- The last error came from a discovery. -/
def lastErrorIsDiscovery (state : AccountUsageState) : Bool :=
  state.lastErrorCode.any fun code => startsWith code "models_"

/-- `recover_model_discovery_state`, and whether it recovered anything. -/
def recoverModelDiscoveryState (state : AccountUsageState) : AccountUsageState × Bool :=
  if !lastErrorIsDiscovery state then (state, false)
  else
    let state := { state with lastErrorCode := none }
    if state.authState.requiresFreshLogin then (state, true)
    else
      ({ state with
         authState := if state.authState = .error then .active else state.authState
         health := .healthy }, true)

/-! ## Uses -/

inductive AccountAccessState
  | refreshable
  | accessOnly
  | failed
deriving DecidableEq, Repr

structure AccountUsageObservation where
  success : Bool
  httpStatus : Nat
  errorCategory : Option String := none
  affectsAccount : Bool := true
deriving DecidableEq, Repr

structure AccountUsageUpdate where
  state : AccountUsageState
  resetRuntimeFailures : Bool
  refreshQuota : Bool
deriving DecidableEq, Repr

/-- The account was observed to need a login, or to be blocked. -/
def AccountUsageState.explicit (state : AccountUsageState) : Bool :=
  state.authState.requiresFreshLogin || state.health = .blocked

/-- A lesser failure: it does not change an explicit state. -/
def AccountUsageState.degrade (state : AccountUsageState) : AccountUsageState :=
  if state.explicit then state else { state with health := .degraded }

def AccountUsageState.withError (state : AccountUsageState) (code : String) : AccountUsageState :=
  { state with lastErrorCode := some code }

/-- The state after a use that failed and that says something about the account. -/
def afterFailedUse (state : AccountUsageState) (observation : AccountUsageObservation)
    (accessState : Option AccountAccessState) : AccountUsageState :=
  let category := observation.errorCategory.filter fun category => category ≠ "upstream_status"
  if observation.httpStatus = 401 then
    match accessState with
    | some .refreshable => state.degrade.withError (category.getD "upstream_unauthorized")
    | some .accessOnly =>
      { state with
        authState := if state.authState.requiresFreshLogin then state.authState else .error
        health := .unhealthy
        lastErrorCode := some (category.getD "upstream_unauthorized") }
    | some .failed | none =>
      if state.explicit then state
      else
        { state with
          authState := .error
          health := .unhealthy
          lastErrorCode := some "credential_access_expiry_failed" }
  else if observation.httpStatus = 403 then
    let category := category.getD "upstream_forbidden"
    let state :=
      if category ∈ ["upstream_quota_exhausted", "upstream_usage_not_included",
          "upstream_region_unsupported", "upstream_edge_challenge"] then state.degrade
      else { state with health := .blocked }
    state.withError category
  else if observation.httpStatus = 429 then
    state.degrade.withError (category.getD "upstream_rate_limited")
  else state.degrade.withError (observation.errorCategory.getD "upstream_failure")

def reduceAccountUsage (state : AccountUsageState) (observation : AccountUsageObservation)
    (observedAtMs : Nat) (accessState : Option AccountAccessState)
    (successfulAuthState : Option AccountAuthState) : AccountUsageUpdate :=
  if observation.success then
    let authState :=
      match state.authState with
      | .error | .requiresReauth _ => successfulAuthState.getD state.authState
      | authState => authState
    { state := { authState, health := .healthy, lastErrorCode := none,
                 lastUsedAtMs := some observedAtMs }
      resetRuntimeFailures := true
      refreshQuota := false }
  else if !observation.affectsAccount then
    { state, resetRuntimeFailures := false, refreshQuota := false }
  else
    { state := afterFailedUse state observation accessState
      resetRuntimeFailures := true
      refreshQuota := observation.httpStatus = 429 ||
        (observation.httpStatus = 401 && accessState = some .refreshable) ||
        (observation.httpStatus = 403 &&
          observation.errorCategory = some "upstream_quota_exhausted") }

/-! ## Lesser observations -/

/-- What is seen of an account apart from a use that succeeds. -/
inductive LesserObservation
  | failedUse (observation : AccountUsageObservation) (observedAtMs : Nat)
      (accessState : Option AccountAccessState) (successfulAuthState : Option AccountAuthState)
  | discoveryFailed (code : String) (retryable : Bool)
  | discoveryRecovered

/-- A failed use is reduced as a failure whatever its flag says. -/
def AccountUsageState.observe (state : AccountUsageState) : LesserObservation → AccountUsageState
  | .failedUse observation observedAtMs accessState successfulAuthState =>
    (reduceAccountUsage state { observation with success := false } observedAtMs accessState
      successfulAuthState).state
  | .discoveryFailed code retryable => applyModelDiscoveryFailure state code retryable
  | .discoveryRecovered => (recoverModelDiscoveryState state).1

/-- The observation leaves a block as it is. -/
def Spares (state : AccountUsageState) : LesserObservation → Prop
  | .failedUse observation _ accessState _ =>
    ¬ (observation.affectsAccount = true ∧ observation.httpStatus = 401 ∧
      accessState = some .accessOnly)
  | .discoveryFailed code _ => code = "models_forbidden"
  | .discoveryRecovered => lastErrorIsDiscovery state = true → state.authState.requiresFreshLogin = true

theorem degrade_authState (state : AccountUsageState) : state.degrade.authState = state.authState := by
  unfold AccountUsageState.degrade
  split <;> rfl

variable {state : AccountUsageState}

theorem degrade_health (h : state.health = .blocked) :
    state.degrade.health = .blocked := by
  rw [AccountUsageState.degrade, if_pos (by simp [AccountUsageState.explicit, h]), h]

/-- A required login is left as it is by every lesser observation. -/
theorem observe_authState (h : state.authState.requiresFreshLogin = true)
    (observation : LesserObservation) :
    (state.observe observation).authState = state.authState := by
  have hexplicit : state.explicit = true := by rw [AccountUsageState.explicit, h, Bool.true_or]
  cases observation with
  | failedUse observation observedAtMs accessState successfulAuthState =>
    rw [AccountUsageState.observe, reduceAccountUsage, if_neg Bool.false_ne_true]
    split
    case isTrue => rfl
    case isFalse =>
      unfold afterFailedUse
      dsimp only
      split
      case isTrue =>
        split
        · exact degrade_authState state
        · rfl
        · rfl
        · rfl
      case isFalse =>
        split
        case isTrue =>
          rw [AccountUsageState.withError]
          split
          · exact degrade_authState state
          · rfl
        case isFalse => split <;> exact degrade_authState state
  | discoveryFailed code retryable =>
    rw [AccountUsageState.observe, applyModelDiscoveryFailure]
    split
    · rfl
    · split
      · split <;> rfl
      · rfl
  | discoveryRecovered =>
    rw [AccountUsageState.observe, recoverModelDiscoveryState]
    split
    · rfl
    · rw [if_pos h]

/-- A blocked account stays blocked exactly when the observation spares it. -/
theorem observe_blocked_iff (h : state.health = .blocked)
    (observation : LesserObservation) :
    (state.observe observation).health = .blocked ↔ Spares state observation := by
  have hexplicit : state.explicit = true := by simp [AccountUsageState.explicit, h]
  cases observation with
  | failedUse observation observedAtMs accessState successfulAuthState =>
    rw [AccountUsageState.observe, reduceAccountUsage, if_neg Bool.false_ne_true, Spares]
    split
    case isTrue haffects =>
      have hnot : observation.affectsAccount ≠ true := by simpa using haffects
      exact iff_of_true h fun hall => hnot hall.1
    case isFalse haffects =>
      have haffected : observation.affectsAccount = true := by simpa using haffects
      unfold afterFailedUse
      dsimp only
      split
      case isTrue hstatus =>
        split
        · exact iff_of_true (degrade_health h) fun hall => nomatch hall.2.2
        · exact iff_of_false nofun fun hspared => hspared ⟨haffected, hstatus, rfl⟩
        · exact iff_of_true h fun hall => nomatch hall.2.2
        · exact iff_of_true h fun hall => nomatch hall.2.2
      case isFalse hstatus =>
        refine iff_of_true ?_ fun hall => hstatus hall.2.1
        split
        · rw [AccountUsageState.withError]
          split
          · exact degrade_health h
          · rfl
        · split <;> exact degrade_health h
  | discoveryFailed code retryable =>
    rw [AccountUsageState.observe, applyModelDiscoveryFailure, Spares]
    split
    case isTrue hcode =>
      refine iff_of_false nofun ?_
      rintro rfl
      simp at hcode
    case isFalse =>
      split
      case isTrue hforbidden =>
        rw [if_pos (.inl h)]
        exact iff_of_true h hforbidden
      case isFalse hforbidden =>
        refine iff_of_false ?_ hforbidden
        cases retryable <;> exact nofun
  | discoveryRecovered =>
    rw [AccountUsageState.observe, recoverModelDiscoveryState, Spares]
    split
    case isTrue hother =>
      refine iff_of_true h fun hdiscovery => ?_
      simp [hdiscovery] at hother
    case isFalse hother =>
      have hdiscovery : lastErrorIsDiscovery state = true := by simpa using hother
      dsimp only
      split
      case isTrue hlogin => exact iff_of_true h fun _ => hlogin
      case isFalse hlogin => exact iff_of_false nofun fun hspared => hlogin (hspared hdiscovery)

/-! ## Runs -/

/-- A required login stays required. -/
theorem requiresFreshLogin_survives
    (h : state.authState.requiresFreshLogin = true) (observations : List LesserObservation) :
    (run AccountUsageState.observe state observations).authState.requiresFreshLogin = true := by
  refine run_invariant_of_forall (I := fun state : AccountUsageState => state.authState.requiresFreshLogin = true) ?_ h _
  intro state observation hlogin
  rw [observe_authState hlogin]
  exact hlogin

/-- A block is there in every state of a run exactly when every observation spares it. -/
theorem blocked_throughout_iff (h : state.health = .blocked)
    (observations : List LesserObservation) :
    (∀ before after, observations = before ++ after →
        (run AccountUsageState.observe state before).health = .blocked) ↔
      StepsMeet AccountUsageState.observe Spares state observations := by
  induction observations generalizing state with
  | nil =>
    refine iff_of_true (fun before after heq => ?_) trivial
    rw [(List.append_eq_nil_iff.mp heq.symm).1]
    exact h
  | cons observation observations ih =>
    constructor
    · intro hall
      have hnext := hall [observation] observations rfl
      refine ⟨(observe_blocked_iff h observation).mp hnext, (ih hnext).mp fun before after heq => ?_⟩
      exact hall (observation :: before) after (by rw [heq, List.cons_append])
    · rintro ⟨hspares, hrest⟩ before after heq
      cases before with
      | nil => exact h
      | cons first before =>
        obtain ⟨rfl, htail⟩ := List.cons.inj heq
        exact (ih ((observe_blocked_iff h observation).mpr hspares)).mpr hrest before after htail

/-- Through every run of lesser observations a required login stays required, and a blocked account is
blocked all along exactly when no observation forgets the block. -/
theorem confirmed_status_survives (state : AccountUsageState) (observations : List LesserObservation) :
    (state.authState.requiresFreshLogin = true →
      (run AccountUsageState.observe state observations).authState.requiresFreshLogin = true) ∧
    (state.health = .blocked →
      ((∀ before after, observations = before ++ after →
          (run AccountUsageState.observe state before).health = .blocked) ↔
        StepsMeet AccountUsageState.observe Spares state observations)) :=
  ⟨fun h => requiresFreshLogin_survives h observations, fun h => blocked_throughout_iff h observations⟩

/-! A workspace is disabled; then its model catalog is forbidden, and later it can be read again. -/

def blockedAccount : AccountUsageState :=
  { authState := .active, health := .blocked, lastErrorCode := some "workspace_disabled" }

theorem confirmed_status_survives_catalog :
    (∀ before after, [LesserObservation.discoveryFailed "models_forbidden" false] = before ++ after →
        (run AccountUsageState.observe blockedAccount before).health = .blocked) ∧
      (run AccountUsageState.observe
        { blockedAccount with authState := .requiresReauth .invalidGrant }
        [.discoveryFailed "models_unauthorized" false]).authState.requiresFreshLogin = true :=
  ⟨((confirmed_status_survives blockedAccount _).2 rfl).mpr ⟨rfl, trivial⟩,
    (confirmed_status_survives _ _).1 rfl⟩

/-- The recovery of the catalog makes the account healthy. -/
theorem block_forgotten : ¬ ∀ (state : AccountUsageState) (observations : List LesserObservation),
    state.health = .blocked →
      (run AccountUsageState.observe state observations).health = .blocked := by
  intro h
  have hblocked := h blockedAccount [.discoveryFailed "models_forbidden" false, .discoveryRecovered] rfl
  revert hblocked
  decide +kernel

end Zenith.Accounts
