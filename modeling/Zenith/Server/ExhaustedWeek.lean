import Mathlib
import Zenith.Quota.Refresh
import Zenith.Server.WeeklyReset

/-!
# Resetting an exhausted week

`finalize_refresh` of `jobs/account_refresh.rs`: after a refresh, a reset credit is redeemed for a weekly window that
reaches zero. The reducer reports two lists of transitions, those of windows that became full and those of windows that
were exhausted, and `refreshOne` hands on the first. So the credit is redeemed when a week becomes full, and none is when
it is exhausted (`credit_spent_on_full_week`); `credit_spent_on_exhausted_week_iff` says when it still turns out right.
-/

namespace Zenith.Server

open Zenith.Accounts Zenith.Automations Zenith.Quota

/-! ## Refreshing -/

inductive RefreshInvocation
  | manual
  | backgroundBatch
deriving DecidableEq, Repr

inductive ResetRequest
  | credits
  | consume
deriving DecidableEq, Repr

/-- What a worker finds: the wake tasks, the stored marks before and under the lock, whether reads, the credential, the
client and the authorization succeed, the replies, and whether the mark can be written. -/
structure ResetEnvironment where
  tasks : List WakeTask
  marks : List String
  lockedMarks : List String
  prepared : Bool
  credits : CreditsReply
  consume : ConsumeReply
  marked : Bool

section
variable (sha256 : List UInt8 → List UInt8)

/-- The stored account after a refresh, with the transitions that are handed on. -/
def refreshOne (account : AccountRecord) (result : Except QuotaRefreshFailure QuotaRefreshData) (nowMs : UInt64) :
    Option (AccountRecord × List QuotaTransition) :=
  (reduceAccountQuota sha256 account.quota result nowMs.toNat).toOption.map fun update =>
    let transitions :=
      match update.outcome with
      | .updated transitions => transitions
      | .failed _ _ => []
    ({ account with quota := update.quota }, transitions)

/-- The requests that are sent, and whether the reset was applied. -/
def tryAutoResetWeekly (account : AccountRecord) (transitions : List QuotaTransition) (env : ResetEnvironment) :
    List ResetRequest × Bool :=
  match resetFingerprint account env.tasks transitions with
  | none => ([], false)
  | some fingerprint =>
    if markKey account.id fingerprint ∈ env.marks ∨ markKey account.id fingerprint ∈ env.lockedMarks then ([], false)
    else if !env.prepared then ([], false)
    else if env.credits.available = 0 then ([.credits], false)
    else ([.credits, .consume], env.consume = .success && env.marked)

/-- The requests that are sent, the account that is returned, if the refresh after the reset does not fail it, and the
transitions that are scheduled. -/
structure FinalizedRefresh where
  requests : List ResetRequest
  account : Option AccountRecord
  scheduled : List QuotaTransition

/-- `again` is the result of the refresh after the reset. -/
def finalizeRefresh (account : AccountRecord) (transitions : List QuotaTransition) (invocation : RefreshInvocation)
    (env : ResetEnvironment) (again : Except QuotaRefreshFailure QuotaRefreshData) (nowMs : UInt64) : FinalizedRefresh :=
  if transitions.isEmpty then { requests := [], account := some account, scheduled := [] }
  else
    let (requests, applied) := tryAutoResetWeekly account transitions env
    let refreshed :=
      if applied then
        match refreshOne sha256 account again nowMs, invocation with
        | some (refreshed, _), _ => some refreshed
        | none, .manual => none
        | none, .backgroundBatch => some account
      else some account
    match refreshed with
    | none => { requests, account := none, scheduled := [] }
    | some account =>
      if invocation = .backgroundBatch && account.quota.error.isSome then
        { requests, account := some account, scheduled := [] }
      else { requests, account := some account, scheduled := transitions }

end

/-! ## Exhausted weeks -/

/-- An enabled weekly task matches the account. -/
def ResetEnvironment.matched (env : ResetEnvironment) (account : AccountRecord) : Bool :=
  env.tasks.any fun task => task.enabled && task.trigger = .weekly && task.accountSelector.matches account

/-- The reset of a transition was not applied before. -/
def ResetEnvironment.Unmarked (env : ResetEnvironment) (account : AccountRecord) (fingerprint : String) : Prop :=
  markKey account.id fingerprint ∉ env.marks ∧ markKey account.id fingerprint ∉ env.lockedMarks

/-- A credit is spent only on an exhausted week, and the credits are asked for when a week is exhausted. -/
structure SpendsOnExhaustedWeek (account refreshed : AccountRecord) (env : ResetEnvironment)
    (requests : List ResetRequest) : Prop where
  spent : .consume ∈ requests → ∃ window, refreshed.quota.secondary = some window ∧ window.isExhausted = true
  reached : ∀ stored window, account.quota.secondary = some stored → stored.isExhausted = false →
    refreshed.quota.secondary = some window → window.isExhausted = true →
    refreshed.quota.resetCreditsAvailable.getD 0 ≠ 0 → env.matched refreshed = true → env.prepared = true →
    (∀ fingerprint, window.exhaustionTransitionFingerprint = some fingerprint → env.Unmarked account fingerprint) →
    .credits ∈ requests

/-! ### The condition -/

def reportsFull (input : QuotaWindowInput) : Bool :=
  input.explicitlyFull.getD (input.availablePercent.any (defaultFullThresholdBasisPoints ≤ ·))

/-- The report of a window that is not stored. -/
def reportsPlaceholder (input : QuotaWindowInput) : Bool :=
  input.availablePercent = some 10000 && (input.windowMinutes.map (·.toNat)).getD 0 = 0 &&
    (input.reset.map (·.normalizeMs input.observedAtMs)).all fun resetAtMs => decide (resetAtMs ≤ input.observedAtMs.toNat)

/-- The report takes a stored week that was not full to a full one. -/
def fillsWeek (quota : QuotaSnapshot) (input : QuotaWindowInput) : Bool :=
  (quota.secondary.any fun stored => stored.kind = .secondary && !stored.isFullyAvailable) && reportsFull input &&
    !reportsPlaceholder input

/-- The report takes a stored week that was not exhausted to an exhausted one. -/
def exhaustsWeek (quota : QuotaSnapshot) (input : QuotaWindowInput) : Bool :=
  (quota.secondary.any fun stored => !stored.isExhausted) && input.availablePercent = some 0

/-- Where a credit can be redeemed: a week that becomes full with the report, and whose reset was not applied, is
reported as exhausted too, unless the provider has no credits; and a week that is exhausted with it also becomes full. -/
def RedeemsRight (sha256 : List UInt8 → List UInt8) (account : AccountRecord)
    (result : Except QuotaRefreshFailure QuotaRefreshData) (env : ResetEnvironment) : Prop :=
  ∀ data, result = .ok data → data.resetCreditsAvailable.getD 0 ≠ 0 → env.matched account = true →
    env.prepared = true → ∀ input, data.secondary = some input →
      (fillsWeek account.quota input = true → env.Unmarked account (WindowEdge.full.fresh sha256 input) →
        env.credits.available ≠ 0 → input.availablePercent = some 0) ∧
      (exhaustsWeek account.quota input = true → env.Unmarked account (WindowEdge.exhausted.fresh sha256 input) →
        fillsWeek account.quota input = true ∧ env.Unmarked account (WindowEdge.full.fresh sha256 input))

/-! ## Requests -/

section
variable {sha256 : List UInt8 → List UInt8} {account refreshed : AccountRecord} {transitions : List QuotaTransition}
  {env : ResetEnvironment}

theorem requests_finalizeRefresh (invocation : RefreshInvocation) (again : Except QuotaRefreshFailure QuotaRefreshData)
    (nowMs : UInt64) :
    (finalizeRefresh sha256 account transitions invocation env again nowMs).requests =
      (tryAutoResetWeekly account transitions env).1 := by
  unfold finalizeRefresh
  split
  case isTrue hempty =>
    have hnone : resetFingerprint account env.tasks transitions = none := by
      rw [List.isEmpty_iff.mp hempty]
      unfold resetFingerprint
      split
      · rfl
      · split <;> rfl
    rw [tryAutoResetWeekly, hnone]
  case isFalse =>
    dsimp only
    split
    · rfl
    · split <;> rfl

theorem credits_mem_iff :
    .credits ∈ (tryAutoResetWeekly account transitions env).1 ↔
      env.prepared = true ∧ ∃ fingerprint, resetFingerprint account env.tasks transitions = some fingerprint ∧
        env.Unmarked account fingerprint := by
  unfold tryAutoResetWeekly
  cases resetFingerprint account env.tasks transitions with
  | none => simp
  | some fingerprint =>
    dsimp only
    unfold ResetEnvironment.Unmarked
    by_cases hmarks : markKey account.id fingerprint ∈ env.marks ∨ markKey account.id fingerprint ∈ env.lockedMarks
    · rw [if_pos hmarks]
      refine ⟨nofun, fun ⟨_, other, hother, hunmarked⟩ => ?_⟩
      rw [← Option.some.inj hother] at hunmarked
      exact absurd hmarks (not_or.mpr hunmarked)
    · rw [if_neg hmarks]
      have hunmarked := not_or.mp hmarks
      cases hprepared : env.prepared with
      | false => simp
      | true =>
        refine ⟨fun _ => ⟨rfl, fingerprint, rfl, hunmarked⟩, fun _ => ?_⟩
        by_cases havailable : env.credits.available = 0
        · simp [havailable]
        · simp [havailable]

theorem consume_mem_iff :
    .consume ∈ (tryAutoResetWeekly account transitions env).1 ↔
      .credits ∈ (tryAutoResetWeekly account transitions env).1 ∧ env.credits.available ≠ 0 := by
  unfold tryAutoResetWeekly
  cases resetFingerprint account env.tasks transitions with
  | none => simp
  | some fingerprint =>
    dsimp only
    split
    · simp
    · split
      · simp
      · split <;> simp_all

/-! ## What a refresh hands on -/

variable {input : QuotaWindowInput}

/-- The week after a report. -/
theorem normalize_reports {previous : Option QuotaWindow} {window : QuotaWindow}
    (h : QuotaWindow.normalize sha256 input previous = .ok window) :
    window.isFullyAvailable = reportsFull input ∧ window.isExhausted = decide (input.availablePercent = some 0) ∧
      (input.kind = .secondary → window.isEmptyProviderPlaceholder = reportsPlaceholder input) := by
  unfold QuotaWindow.normalize at h
  split at h
  case isTrue => exact nomatch h
  case isFalse =>
    obtain rfl := Except.ok.inj h
    refine ⟨rfl, rfl, fun hkind => ?_⟩
    unfold QuotaWindow.isEmptyProviderPlaceholder reportsPlaceholder
    dsimp only
    rw [hkind]
    rfl

variable {previous : QuotaSnapshot} {data : QuotaRefreshData} {failureObservedAtMs : Nat} {update : QuotaUpdate}

/-- The stored week comes of the reported one, and a placeholder is not stored. -/
theorem secondary_of_refresh (h : reduceAccountQuota sha256 previous (.ok data) failureObservedAtMs = .ok update) :
    (data.secondary = none ∧ update.quota.secondary = none) ∨
      ∃ input window, data.secondary = some input ∧ input.kind = .secondary ∧
        QuotaWindow.normalize sha256 input previous.secondary = .ok window ∧
        update.quota.secondary = if reportsPlaceholder input then none else some window := by
  have hslot : normalizeWindow sha256 .secondary previous.secondary data.secondary = .ok update.quota.secondary :=
    normalize_window (reduceAccountQuota_updated h).1 .secondary
  cases hinput : data.secondary with
  | none =>
    rw [hinput] at hslot
    exact .inl ⟨rfl, (Except.ok.inj hslot).symm⟩
  | some input =>
    rw [hinput, normalizeWindow] at hslot
    split at hslot
    case isTrue => cases hslot
    case isFalse hkind =>
      have hkind := not_not.mp hkind
      cases hwindow : QuotaWindow.normalize sha256 input previous.secondary with
      | error error =>
        rw [hwindow] at hslot
        cases hslot
      | ok window =>
        rw [hwindow] at hslot
        refine .inr ⟨input, window, rfl, hkind, hwindow, ?_⟩
        rw [← (normalize_reports hwindow).2.2 hkind]
        exact (Except.ok.inj hslot).symm

/-- A refresh hands on the transition of a week that it fills. -/
theorem fullTransition_of_refresh
    (h : reduceAccountQuota sha256 previous (.ok data) failureObservedAtMs = .ok update) :
    ((update.reported .full).find? fun transition => transition.windowKind = .secondary).map (·.fingerprint) =
      (data.secondary.filter (fillsWeek previous)).map (WindowEdge.full.fresh sha256) := by
  have hkinds : ∀ kind transition, ((update.quota.window kind).bind fun window =>
      WindowEdge.full.transitionFrom sha256 window (previous.window kind)) = some transition →
      transition.windowKind = kind := by
    intro kind transition htransition
    obtain ⟨window, hwindow, htransition⟩ := Option.bind_eq_some_iff.mp htransition
    obtain ⟨input, -, hkind, hnormalized⟩ := window_of_refresh h hwindow
    obtain ⟨stored, -, htransition⟩ := Option.bind_eq_some_iff.mp htransition
    split at htransition
    case isTrue =>
      rw [← Option.some.inj htransition]
      exact (normalize_fields hnormalized).1.trans hkind
    case isFalse => exact nomatch htransition
  rw [(reduceAccountQuota_updated h).2 .full, ← List.head?_filter]
  unfold WindowEdge.transitions
  rw [filter_filterMap_kinds hkinds .secondary, Option.head?_toList]
  show (update.quota.secondary.bind fun window =>
    window.fullTransitionFrom sha256 previous.secondary).map (·.fingerprint) = _
  rcases secondary_of_refresh h with ⟨hdata, hnone⟩ | ⟨input, window, hdata, hkind, hnormalized, hstored⟩
  · rw [hdata, hnone]
    rfl
  · obtain ⟨hfull, -, -⟩ := normalize_reports hnormalized
    rw [hdata, hstored, Option.filter_some]
    cases hplaceholder : reportsPlaceholder input with
    | true =>
      have hfills : fillsWeek previous input = false := by
        rw [fillsWeek, hplaceholder, Bool.not_true, Bool.and_false]
      rw [hfills]
      rfl
    | false =>
      show (window.fullTransitionFrom sha256 previous.secondary).map (·.fingerprint) = _
      have hfingerprint := fingerprint_normalize .full hnormalized
      unfold fillsWeek
      rw [hplaceholder, ← hfull, Bool.not_false, Bool.and_true]
      cases hprevious : previous.secondary with
      | none => rfl
      | some stored =>
        rw [hprevious] at hfingerprint
        have hwindow : window.kind = .secondary := (normalize_fields hnormalized).1.trans hkind
        show (if stored.kind = window.kind && !stored.isFullyAvailable && window.isFullyAvailable then _ else none).map _ = _
        rw [hwindow, Option.any_some]
        cases hedge : decide (stored.kind = .secondary) && !stored.isFullyAvailable && window.isFullyAvailable with
        | false => rfl
        | true =>
          obtain ⟨hbefore, hafter⟩ := Bool.and_eq_true_iff.mp hedge
          have hnot : stored.isFullyAvailable = false := (Bool.not_eq_true' _).mp (Bool.and_eq_true_iff.mp hbefore).2
          have hheld : WindowEdge.full.heldFingerprint (some stored) = none := by
            unfold WindowEdge.heldFingerprint
            rw [Option.filter_some, show WindowEdge.full.holds stored = false from hnot]
            rfl
          rw [hheld, show WindowEdge.full.holds window = true from hafter] at hfingerprint
          have hstored : window.fullTransitionFingerprint = some (WindowEdge.full.fresh sha256 input) := hfingerprint
          rw [if_pos rfl, Option.map_some, hstored]
          rfl

variable {nowMs : UInt64}

theorem refreshOne_some {result : Except QuotaRefreshFailure QuotaRefreshData}
    (h : refreshOne sha256 account result nowMs = some (refreshed, transitions)) :
    ∃ update, reduceAccountQuota sha256 account.quota result nowMs.toNat = .ok update ∧
      refreshed = { account with quota := update.quota } ∧ transitions = update.reported .full := by
  obtain ⟨update, hupdate, heq⟩ := Option.map_eq_some_iff.mp h
  obtain ⟨hrefreshed, htransitions⟩ := Prod.mk.inj heq
  refine ⟨update, ?_, hrefreshed.symm, htransitions.symm⟩
  cases hreduce : reduceAccountQuota sha256 account.quota result nowMs.toNat with
  | error error =>
    rw [hreduce] at hupdate
    exact nomatch hupdate
  | ok update' =>
    rw [hreduce] at hupdate
    rw [Option.some.inj hupdate]

/-- The tasks do not look at the quota. -/
theorem matched_refresh (env : ResetEnvironment) (account : AccountRecord) (quota : QuotaSnapshot) :
    env.matched { account with quota } = env.matched account := by
  refine congrArg env.tasks.any (funext fun task => ?_)
  cases task.accountSelector <;> rfl

/-- The fingerprint that a refresh gives the reset. -/
theorem resetFingerprint_of_refresh
    (h : reduceAccountQuota sha256 account.quota (.ok data) nowMs.toNat = .ok update) {fingerprint : String} :
    resetFingerprint { account with quota := update.quota } env.tasks (update.reported .full) = some fingerprint ↔
      update.quota.resetCreditsAvailable.getD 0 ≠ 0 ∧ env.matched account = true ∧
        ∃ input, data.secondary = some input ∧ fillsWeek account.quota input = true ∧
          WindowEdge.full.fresh sha256 input = fingerprint := by
  unfold resetFingerprint
  split
  case isTrue hcredits => exact ⟨nofun, fun hreset => absurd hcredits hreset.1⟩
  case isFalse hcredits =>
    rw [show (env.tasks.any fun task => task.enabled && task.trigger = .weekly &&
      task.accountSelector.matches { account with quota := update.quota }) = env.matched account from
        matched_refresh env account update.quota]
    cases env.matched account with
    | false => exact ⟨nofun, fun hreset => nomatch hreset.2.1⟩
    | true =>
      rw [Bool.not_true, if_neg Bool.false_ne_true, fullTransition_of_refresh h, Option.map_eq_some_iff]
      constructor
      · rintro ⟨input, hinput, hfresh⟩
        obtain ⟨hdata, hfills⟩ := Option.filter_eq_some_iff.mp hinput
        exact ⟨hcredits, rfl, input, hdata, hfills, hfresh⟩
      · rintro ⟨-, -, input, hdata, hfills, hfresh⟩
        exact ⟨input, Option.filter_eq_some_iff.mpr ⟨hdata, hfills⟩, hfresh⟩

theorem resetCreditsAvailable_of_refresh
    (h : reduceAccountQuota sha256 previous (.ok data) failureObservedAtMs = .ok update) :
    update.quota.resetCreditsAvailable.getD 0 ≠ 0 ↔ data.resetCreditsAvailable.getD 0 ≠ 0 := by
  have hnormalize := (reduceAccountQuota_updated h).1
  obtain ⟨primary, -, hnormalize⟩ := Tables.bind_eq_ok.mp hnormalize
  obtain ⟨secondary, -, hnormalize⟩ := Tables.bind_eq_ok.mp hnormalize
  obtain ⟨supplemental, -, hnormalize⟩ := Tables.bind_eq_ok.mp hnormalize
  rw [← Except.ok.inj hnormalize]
  show (data.resetCreditsAvailable.map (·.toNat)).getD 0 ≠ 0 ↔ _
  cases data.resetCreditsAvailable with
  | none => exact not_congr ⟨fun _ => rfl, fun _ => rfl⟩
  | some credits => exact not_congr (UInt32.toNat_inj (b := 0))

/-- The credits are asked for when the report fills the week. -/
theorem credits_mem_refresh_iff (h : reduceAccountQuota sha256 account.quota (.ok data) nowMs.toNat = .ok update) :
    .credits ∈ (tryAutoResetWeekly { account with quota := update.quota } (update.reported .full) env).1 ↔
      env.prepared = true ∧ data.resetCreditsAvailable.getD 0 ≠ 0 ∧ env.matched account = true ∧
        ∃ input, data.secondary = some input ∧ fillsWeek account.quota input = true ∧
          env.Unmarked account (WindowEdge.full.fresh sha256 input) := by
  rw [credits_mem_iff, ← resetCreditsAvailable_of_refresh h]
  refine and_congr_right fun _ => ⟨?_, ?_⟩
  · rintro ⟨fingerprint, hfingerprint, hunmarked⟩
    obtain ⟨hcredits, hmatched, input, hinput, hfills, rfl⟩ := (resetFingerprint_of_refresh h).mp hfingerprint
    exact ⟨hcredits, hmatched, input, hinput, hfills, hunmarked⟩
  · rintro ⟨hcredits, hmatched, input, hinput, hfills, hunmarked⟩
    exact ⟨_, (resetFingerprint_of_refresh h).mpr ⟨hcredits, hmatched, input, hinput, hfills, rfl⟩, hunmarked⟩

/-! ## Exactly the exhausted weeks -/

/-- The exhaustion that a refresh stores, in terms of the report. -/
theorem exhausted_of_refresh (h : reduceAccountQuota sha256 previous (.ok data) failureObservedAtMs = .ok update)
    (hinput : data.secondary = some input) (hnot : reportsPlaceholder input = false) :
    ∃ window, update.quota.secondary = some window ∧ QuotaWindow.normalize sha256 input previous.secondary = .ok window ∧
      window.isExhausted = decide (input.availablePercent = some 0) := by
  rcases secondary_of_refresh h with ⟨hdata, -⟩ | ⟨input', window, hdata, -, hnormalized, hstored⟩
  · exact nomatch hinput.symm.trans hdata
  · obtain rfl := Option.some.inj (hdata.symm.trans hinput)
    rw [hnot] at hstored
    exact ⟨window, hstored, hnormalized, (normalize_reports hnormalized).2.1⟩

theorem exhaustionFingerprint_of_refresh {previous : Option QuotaWindow} {window : QuotaWindow}
    (h : QuotaWindow.normalize sha256 input previous = .ok window) (hafter : window.isExhausted = true)
    (hbefore : ∀ stored, previous = some stored → stored.isExhausted = false) :
    window.exhaustionTransitionFingerprint = some (WindowEdge.exhausted.fresh sha256 input) := by
  have hfingerprint := fingerprint_normalize .exhausted h
  have hheld : WindowEdge.exhausted.heldFingerprint previous = none := by
    unfold WindowEdge.heldFingerprint
    cases previous with
    | none => rfl
    | some stored =>
      rw [Option.filter_some, show WindowEdge.exhausted.holds stored = false from hbefore stored rfl]
      rfl
  rw [hheld, show WindowEdge.exhausted.holds window = true from hafter] at hfingerprint
  exact hfingerprint

theorem not_placeholder_of_exhausted (h : input.availablePercent = some 0) :
    reportsPlaceholder input = false := by
  unfold reportsPlaceholder
  rw [h]
  rfl

theorem spends_of_failure {failure : QuotaRefreshFailure}
    (h : refreshOne sha256 account (.error failure) nowMs = some (refreshed, transitions)) :
    SpendsOnExhaustedWeek account refreshed env (tryAutoResetWeekly refreshed transitions env).1 := by
  obtain ⟨update, hreduce, rfl, rfl⟩ := refreshOne_some h
  obtain ⟨hsame, hnothing⟩ := reduceAccountQuota_failed hreduce
  refine ⟨fun hconsume => ?_, fun stored window hstored hbefore hwindow hafter => ?_⟩
  · obtain ⟨-, fingerprint, hfingerprint, -⟩ := credits_mem_iff.mp (consume_mem_iff.mp hconsume).1
    rw [hnothing .full] at hfingerprint
    unfold resetFingerprint at hfingerprint
    split at hfingerprint
    · exact nomatch hfingerprint
    · split at hfingerprint <;> exact nomatch hfingerprint
  · have hsecondary : update.quota.secondary = account.quota.secondary := congrArg (·.secondary) hsame
    obtain rfl := Option.some.inj (hwindow.symm.trans (hsecondary.trans hstored))
    exact nomatch hbefore.symm.trans hafter

section
variable {data : QuotaRefreshData} {nowMs : UInt64} {update : QuotaUpdate}

theorem redeemsRight_of_spends (hreduce : reduceAccountQuota sha256 account.quota (.ok data) nowMs.toNat = .ok update)
    (hspends : SpendsOnExhaustedWeek account { account with quota := update.quota } env
      (tryAutoResetWeekly { account with quota := update.quota } (update.reported .full) env).1) :
    RedeemsRight sha256 account (.ok data) env := by
  rintro _ ⟨⟩ hcredits hmatched hprepared input hinput
  refine ⟨fun hfills hunmarked havailable => ?_, fun hexhausts hunmarked => ?_⟩
  · have hcredit := (credits_mem_refresh_iff hreduce).mpr ⟨hprepared, hcredits, hmatched, input, hinput, hfills, hunmarked⟩
    obtain ⟨window, hwindow, hexhausted⟩ := hspends.spent (consume_mem_iff.mpr ⟨hcredit, havailable⟩)
    have hplaceholder := (Bool.not_eq_true' _).mp (Bool.and_eq_true_iff.mp hfills).2
    obtain ⟨window', hwindow', -, hreported⟩ := exhausted_of_refresh hreduce hinput hplaceholder
    obtain rfl := Option.some.inj (hwindow'.symm.trans hwindow)
    exact of_decide_eq_true (hreported.symm.trans hexhausted)
  · obtain ⟨hbefore, hzero⟩ := Bool.and_eq_true_iff.mp hexhausts
    have hzero := of_decide_eq_true hzero
    obtain ⟨stored, hstored, hnot⟩ := (Option.any_eq_true _ _).mp hbefore
    have hnot := (Bool.not_eq_true' _).mp hnot
    obtain ⟨window, hwindow, hnormalized, hreported⟩ :=
      exhausted_of_refresh hreduce hinput (not_placeholder_of_exhausted hzero)
    have hexhausted : window.isExhausted = true := hreported.trans (decide_eq_true hzero)
    have hfingerprint := exhaustionFingerprint_of_refresh hnormalized hexhausted fun stored' hstored' => by
      obtain rfl := Option.some.inj (hstored'.symm.trans hstored)
      exact hnot
    have hcredits' := (resetCreditsAvailable_of_refresh hreduce).mpr hcredits
    have hmatched' := (matched_refresh env account update.quota).trans hmatched
    have hunmarked' : ∀ fingerprint, window.exhaustionTransitionFingerprint = some fingerprint →
        env.Unmarked account fingerprint := by
      intro fingerprint hother
      rw [← Option.some.inj (hfingerprint.symm.trans hother)]
      exact hunmarked
    have hcredit := hspends.reached stored window hstored hnot hwindow hexhausted hcredits' hmatched' hprepared hunmarked'
    obtain ⟨-, -, -, input', hinput', hfills, hfull⟩ := (credits_mem_refresh_iff hreduce).mp hcredit
    have hsame : input' = input := Option.some.inj (hinput'.symm.trans hinput)
    rw [hsame] at hfills hfull
    exact ⟨hfills, hfull⟩

theorem spends_of_redeemsRight (hreduce : reduceAccountQuota sha256 account.quota (.ok data) nowMs.toNat = .ok update)
    (hright : RedeemsRight sha256 account (.ok data) env) :
    SpendsOnExhaustedWeek account { account with quota := update.quota } env
      (tryAutoResetWeekly { account with quota := update.quota } (update.reported .full) env).1 := by
  refine ⟨fun hconsume => ?_, fun stored window hstored hnot hwindow hexhausted hcredits hmatched hprepared hunmarked => ?_⟩
  · obtain ⟨hcredit, havailable⟩ := consume_mem_iff.mp hconsume
    obtain ⟨hprepared, hcredits, hmatched, input, hinput, hfills, hunmarked⟩ := (credits_mem_refresh_iff hreduce).mp hcredit
    have hzero := (hright data rfl hcredits hmatched hprepared input hinput).1 hfills hunmarked havailable
    obtain ⟨window, hwindow, -, hreported⟩ := exhausted_of_refresh hreduce hinput (not_placeholder_of_exhausted hzero)
    exact ⟨window, hwindow, hreported.trans (decide_eq_true hzero)⟩
  · rw [matched_refresh] at hmatched
    have hsecondary : update.quota.secondary = some window := hwindow
    rcases secondary_of_refresh hreduce with ⟨-, hnone⟩ | ⟨input, window', hinput, -, hnormalized, hkept⟩
    · exact nomatch hsecondary.symm.trans hnone
    · rw [hsecondary] at hkept
      split at hkept
      case isTrue => exact nomatch hkept
      case isFalse =>
        obtain rfl := Option.some.inj hkept
        have hzero := of_decide_eq_true ((normalize_reports hnormalized).2.1.symm.trans hexhausted)
        have hfingerprint := exhaustionFingerprint_of_refresh hnormalized hexhausted fun stored' hstored' => by
          obtain rfl := Option.some.inj (hstored'.symm.trans hstored)
          exact hnot
        have hexhausts : exhaustsWeek account.quota input = true := by
          rw [exhaustsWeek, hstored, Option.any_some, hnot, hzero]
          rfl
        have hcredits := (resetCreditsAvailable_of_refresh hreduce).mp hcredits
        obtain ⟨hfills, hfull⟩ :=
          (hright data rfl hcredits hmatched hprepared input hinput).2 hexhausts (hunmarked _ hfingerprint)
        exact (credits_mem_refresh_iff hreduce).mpr ⟨hprepared, hcredits, hmatched, input, hinput, hfills, hfull⟩

end

/-- After a refresh, a credit is spent on exhausted weeks only, and asked for when a week is exhausted, exactly if a
week that becomes full is reported as exhausted too, and one that is exhausted becomes full. -/
theorem credit_spent_on_exhausted_week_iff {result : Except QuotaRefreshFailure QuotaRefreshData} {nowMs : UInt64}
    (h : refreshOne sha256 account result nowMs = some (refreshed, transitions)) (invocation : RefreshInvocation)
    (again : Except QuotaRefreshFailure QuotaRefreshData) (againMs : UInt64) :
    SpendsOnExhaustedWeek account refreshed env
        (finalizeRefresh sha256 refreshed transitions invocation env again againMs).requests ↔
      RedeemsRight sha256 account result env := by
  rw [requests_finalizeRefresh]
  cases result with
  | error failure => exact ⟨fun _ data hdata => absurd hdata nofun, fun _ => spends_of_failure h⟩
  | ok data =>
    obtain ⟨update, hreduce, rfl, rfl⟩ := refreshOne_some h
    exact ⟨redeemsRight_of_spends hreduce, spends_of_redeemsRight hreduce⟩

end

/-! A weekly task, and weeks that become full and exhausted. -/

def weeklyEnvironment : ResetEnvironment where
  tasks := [weeklyTask]
  marks := []
  lockedMarks := []
  prepared := true
  credits := .body (some (.object [("available_count", Json.ofNat 1)]))
  consume := .success
  marked := true

def weekOf (availablePercent : Nat) (observedAtMs : UInt64) : QuotaRefreshData where
  secondary := some
    { kind := .secondary, availablePercent := some availablePercent, windowMinutes := some 10080, observedAtMs }
  resetCreditsAvailable := some 1
  observedAtMs

def halfWeek : AccountRecord where
  id := "acct"
  quota := { secondary := some { kind := .secondary, availableBasisPoints := some 5000, observedAtMs := 1000 } }

/-- A week that goes on is right. -/
theorem credit_spent_on_exhausted_week_iff_half :
    ∃ refreshed transitions, SpendsOnExhaustedWeek halfWeek refreshed weeklyEnvironment
      (finalizeRefresh id refreshed transitions .manual weeklyEnvironment (.ok (weekOf 4000 3000)) 3000).requests := by
  obtain ⟨⟨refreshed, transitions⟩, hrefresh⟩ := Option.isSome_iff_exists.mp
    (show (refreshOne id halfWeek (.ok (weekOf 4000 2000)) 2000).isSome = true by decide +kernel)
  refine ⟨refreshed, transitions, (credit_spent_on_exhausted_week_iff hrefresh .manual _ _).mpr ?_⟩
  rintro _ ⟨⟩ - - - _ ⟨⟩
  exact ⟨nofun, nofun⟩

/-- A credit is redeemed for the week that becomes full, and none for the week that is exhausted. -/
theorem credit_spent_on_full_week :
    ¬∀ (account : AccountRecord) (result : Except QuotaRefreshFailure QuotaRefreshData) (nowMs : UInt64) refreshed transitions,
      refreshOne id account result nowMs = some (refreshed, transitions) →
      SpendsOnExhaustedWeek account refreshed weeklyEnvironment
        (finalizeRefresh id refreshed transitions .manual weeklyEnvironment result nowMs).requests := by
  intro h
  obtain ⟨⟨refreshed, transitions⟩, hrefresh⟩ := Option.isSome_iff_exists.mp
    (show (refreshOne id halfWeek (.ok (weekOf 10000 2000)) 2000).isSome = true by decide +kernel)
  have hspent : (refreshOne id halfWeek (.ok (weekOf 10000 2000)) 2000).any (fun update =>
      decide (.consume ∈ (finalizeRefresh id update.1 update.2 .manual weeklyEnvironment (.ok (weekOf 10000 2000)) 2000).requests) &&
        !update.1.quota.secondary.any (·.isExhausted)) = true := by decide +kernel
  rw [hrefresh] at hspent
  obtain ⟨hconsume, hnot⟩ := Bool.and_eq_true_iff.mp hspent
  obtain ⟨window, hwindow, hexhausted⟩ := (h _ _ _ _ _ hrefresh).spent (of_decide_eq_true hconsume)
  rw [hwindow, Option.any_some, hexhausted] at hnot
  exact nomatch hnot

/-- The week that is exhausted. -/
example : (refreshOne id halfWeek (.ok (weekOf 0 2000)) 2000).map (fun update =>
    (finalizeRefresh id update.1 update.2 .manual weeklyEnvironment (.ok (weekOf 0 2000)) 2000).requests) = some [] := by
  decide +kernel

end Zenith.Server
