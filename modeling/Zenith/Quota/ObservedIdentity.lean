import Mathlib
import Zenith.Quota.Edges

/-!
# Fingerprints and passive observations

Response headers also write the windows of an account. `parse_window` makes a window of them that knows nothing of the
stored one, so it has a fingerprint of its own, and `merge_window` keeps that fingerprint with an availability that may
be the stored one's. An exhausted window that headers report again therefore gets a new fingerprint, or none
(`identity_lost`). `WindowMerge.Keeps` says which observations do not come between a window and its fingerprints, and
`exhaustion_identity_stable` that histories of those keep them.
-/

namespace Zenith.Quota

open Zenith.Tables

/-! ## Headers -/

/-- The values of the headers for one window, those that are numbers of the header's type. -/
structure WindowHeaders where
  usedPercent : Option Nat := none
  resetAfterSeconds : Option UInt64 := none
  windowMinutes : Option UInt32 := none
deriving DecidableEq

structure HeaderValues where
  primary : WindowHeaders := {}
  secondary : WindowHeaders := {}
deriving DecidableEq

def WindowHeaders.input (headers : WindowHeaders) (kind : QuotaWindowKind) (observedAtMs : UInt64) : QuotaWindowInput where
  kind
  availablePercent := (headers.usedPercent.filter (· ≤ 10000)).map (10000 - ·)
  reset := headers.resetAfterSeconds.map .relativeSeconds
  windowMinutes := headers.windowMinutes
  observedAtMs

section
variable (sha256 : List UInt8 → List UInt8)

def parseWindow (kind : QuotaWindowKind) (observedAtMs : UInt64) (headers : WindowHeaders) : Option QuotaWindow :=
  if (headers.usedPercent.filter (· ≤ 10000)).isNone && headers.resetAfterSeconds.isNone &&
      headers.windowMinutes.isNone then none
  else
    (QuotaWindow.normalize sha256 (headers.input kind observedAtMs) none).toOption.filter fun window =>
      !window.isEmptyProviderPlaceholder

def HeaderValues.parse (headers : HeaderValues) (observedAtMs : UInt64) : CodexHeaders where
  primary := parseWindow sha256 .primary observedAtMs headers.primary
  secondary := parseWindow sha256 .secondary observedAtMs headers.secondary
  observedAtMs := observedAtMs.toNat

end

/-! ## Histories -/

inductive ObservedEvent
  | event (change : QuotaEvent)
  | headers (values : HeaderValues) (observedAtMs : UInt64)

def ObservedEvent.step (sha256 : List UInt8 → List UInt8) (quota : QuotaSnapshot) : ObservedEvent → Option QuotaSnapshot
  | .event change => change.step sha256 quota
  | .headers values observedAtMs => some (quota.observe (values.parse sha256 observedAtMs))

/-- When an event observed something. -/
def ObservedEvent.observedAtMs : ObservedEvent → Option UInt64
  | .event (.refreshed data) => some data.observedAtMs
  | .event (.failed _ observedAtMs) => some observedAtMs
  | .event .restarted => none
  | .headers _ observedAtMs => some observedAtMs

/-- The snapshots of an account before and after each of its first `n` events. -/
structure ObservedHistory (sha256 : List UInt8 → List UInt8) (events : Nat → ObservedEvent)
    (snapshots : Nat → QuotaSnapshot) (n : Nat) : Prop where
  start : snapshots 0 = {}
  step : ∀ i < n, (events i).step sha256 (snapshots i) = some (snapshots (i + 1))

/-- The windows of a snapshot: the rolling ones, and the supplemental ones by their identifiers. -/
inductive WindowRef
  | rolling (kind : QuotaWindowKind)
  | supplemental (id : String)

def QuotaSnapshot.find (quota : QuotaSnapshot) : WindowRef → Option QuotaWindow
  | .rolling kind => quota.window kind
  | .supplemental id => (quota.supplemental.find? fun window => window.id = id).map (·.window)

/-- Each window has the fingerprints of the edges that hold. -/
def QuotaSnapshot.Identified (quota : QuotaSnapshot) : Prop :=
  ∀ ref window, quota.find ref = some window → ∀ edge : WindowEdge, (edge.fingerprint window).isSome = edge.holds window

/-- A window that stays exhausted keeps the fingerprint of its exhaustion. -/
def KeepsExhaustion (sha256 : List UInt8 → List UInt8) (before after : QuotaSnapshot) : Prop :=
  ∀ ref window window', before.find ref = some window → after.find ref = some window' → window.isExhausted = true →
    window'.isExhausted = true →
    (window'.exhaustionTransition sha256).map (·.fingerprint) = (window.exhaustionTransition sha256).map (·.fingerprint)

/-- What a history keeps of the identity of its windows. -/
structure IdentityStable (sha256 : List UInt8 → List UInt8) (snapshots : Nat → QuotaSnapshot) (n : Nat) : Prop where
  identified : ∀ i ≤ n, (snapshots i).Identified
  keeps : ∀ i < n, KeepsExhaustion sha256 (snapshots i) (snapshots (i + 1))

/-! ## Observations that keep fingerprints -/

/-- The merged availability is full just when the observed one is. -/
def FullAlike : Option Nat → Option Nat → Prop
  | none, _ => True
  | some available, none => available < defaultFullThresholdBasisPoints
  | some available, some observed =>
    observed < defaultFullThresholdBasisPoints ∨ defaultFullThresholdBasisPoints ≤ available

instance (available observed : Option Nat) : Decidable (FullAlike available observed) :=
  match available, observed with
  | none, _ => isTrue trivial
  | some available, none => inferInstanceAs (Decidable (available < defaultFullThresholdBasisPoints))
  | some available, some observed =>
    inferInstanceAs (Decidable (observed < defaultFullThresholdBasisPoints ∨ defaultFullThresholdBasisPoints ≤ available))

/-- An observation does not come between a stored window and its fingerprints. In a new cycle the window is the observed
one, and must not be exhausted after an exhausted one. In the old cycle the stored window must not be exhausted. -/
def WindowMerge.Keeps (stored observed : QuotaWindow) : Prop :=
  if isNewCycle (some stored) observed then ¬(stored.isExhausted = true ∧ observed.isExhausted = true)
  else
    stored.isExhausted = false ∧ FullAlike stored.availableBasisPoints observed.availableBasisPoints

instance (stored observed : QuotaWindow) : Decidable (WindowMerge.Keeps stored observed) :=
  inferInstanceAs (Decidable (if isNewCycle (some stored) observed then
    ¬(stored.isExhausted = true ∧ observed.isExhausted = true) else
    stored.isExhausted = false ∧ FullAlike stored.availableBasisPoints observed.availableBasisPoints))

/-- The observations of an event keep the fingerprints of the windows that they are not older than. -/
def ObservedEvent.Keeps (sha256 : List UInt8 → List UInt8) (quota : QuotaSnapshot) : ObservedEvent → Prop
  | .event _ => True
  | .headers values observedAtMs => ∀ kind stored observed, quota.window kind = some stored →
      (values.parse sha256 observedAtMs).window kind = some observed → stored.observedAtMs ≤ observed.observedAtMs →
      WindowMerge.Keeps stored observed

/-! ## What events keep -/

section
variable {sha256 : List UInt8 → List UInt8}

/-- A window of headers is one that was reported without a window before. -/
theorem parseWindow_some {kind : QuotaWindowKind} {observedAtMs : UInt64} {headers : WindowHeaders} {window : QuotaWindow}
    (h : parseWindow sha256 kind observedAtMs headers = some window) :
    QuotaWindow.normalize sha256 (headers.input kind observedAtMs) none = .ok window := by
  unfold parseWindow at h
  split at h
  case isTrue => exact nomatch h
  case isFalse =>
    obtain ⟨hsome, -⟩ := Option.filter_eq_some_iff.mp h
    cases hresult : QuotaWindow.normalize sha256 (headers.input kind observedAtMs) none with
    | error error =>
      rw [hresult] at hsome
      exact nomatch hsome
    | ok normalized =>
      rw [hresult] at hsome
      rw [Option.some.inj hsome]

end

/-- The edge, where fullness goes by the availability. -/
def WindowEdge.heldBy : WindowEdge → Option Nat → Bool
  | full, available => available.any (defaultFullThresholdBasisPoints ≤ ·)
  | exhausted, available => available = some 0

theorem WindowEdge.holds_eq (edge : WindowEdge) {window : QuotaWindow} (h : window.explicitlyFull = none) :
    edge.holds window = edge.heldBy window.availableBasisPoints := by
  cases edge with
  | full =>
    show window.explicitlyFull.getD _ = _
    rw [h]
    rfl
  | exhausted => rfl

/-- A merged window is the observed one, with another availability. -/
theorem mergeWindow_newer {stored observed : QuotaWindow} (hnewer : stored.observedAtMs ≤ observed.observedAtMs) :
    (mergeWindow (some stored) observed).availableBasisPoints =
        (if isNewCycle (some stored) observed then observed.availableBasisPoints
        else mergeAvailable stored.availableBasisPoints observed.availableBasisPoints) ∧
      (mergeWindow (some stored) observed).explicitlyFull = observed.explicitlyFull ∧
      ∀ edge : WindowEdge, edge.fingerprint (mergeWindow (some stored) observed) = edge.fingerprint observed := by
  rw [mergeWindow, if_neg (not_lt.mpr hnewer)]
  exact ⟨rfl, rfl, fun edge => by cases edge <;> rfl⟩

theorem heldBy_mergeAvailable {available observed : Option Nat} (hnot : available ≠ some 0)
    (hkeeps : FullAlike available observed)
    (edge : WindowEdge) : edge.heldBy (mergeAvailable available observed) = edge.heldBy observed := by
  cases available with
  | none => cases observed <;> rfl
  | some available =>
    have hpos : available ≠ 0 := fun h => hnot (congrArg some h)
    cases observed with
    | none =>
      cases edge with
      | full => exact decide_eq_false (not_le.mpr hkeeps)
      | exhausted => exact decide_eq_false hnot
    | some reported =>
      cases edge with
      | full =>
        refine decide_eq_decide.mpr ⟨fun h => (le_min_iff.mp h).2, fun h => le_min_iff.mpr ⟨?_, h⟩⟩
        exact hkeeps.resolve_left (not_lt.mpr h)
      | exhausted =>
        refine decide_eq_decide.mpr ⟨fun h => ?_, fun h => ?_⟩
        · have hmin := Option.some.inj h
          rcases min_choice available reported with hmin' | hmin'
          · exact absurd (hmin'.symm.trans hmin) hpos
          · exact congrArg some (hmin'.symm.trans hmin)
        · rw [Option.some.inj h]
          exact congrArg some (Nat.min_zero available)

/-- An observation that keeps the fingerprints. -/
theorem holds_merge {stored observed : QuotaWindow} (hkeeps : WindowMerge.Keeps stored observed)
    (hexplicit : observed.explicitlyFull = none) (hnewer : stored.observedAtMs ≤ observed.observedAtMs) :
    (∀ edge : WindowEdge, edge.holds (mergeWindow (some stored) observed) = edge.holds observed) ∧
      ¬(stored.isExhausted = true ∧ (mergeWindow (some stored) observed).isExhausted = true) := by
  obtain ⟨havailable, hexplicit', -⟩ := mergeWindow_newer hnewer
  have hholds : ∀ edge : WindowEdge, edge.holds (mergeWindow (some stored) observed) = edge.holds observed := by
    intro edge
    rw [edge.holds_eq (hexplicit'.trans hexplicit), edge.holds_eq hexplicit, havailable]
    unfold WindowMerge.Keeps at hkeeps
    split
    case isTrue => rfl
    case isFalse hcycle =>
      rw [if_neg hcycle] at hkeeps
      exact heldBy_mergeAvailable (of_decide_eq_false hkeeps.1) hkeeps.2 edge
  refine ⟨hholds, fun hboth => ?_⟩
  unfold WindowMerge.Keeps at hkeeps
  split at hkeeps
  case isTrue => exact hkeeps ⟨hboth.1, (hholds .exhausted).symm.trans hboth.2⟩
  case isFalse =>
    rw [hkeeps.1] at hboth
    exact nomatch hboth.1

/-! ## Histories that keep fingerprints -/

/-- What an event finds: windows in their slots, with their fingerprints. -/
structure QuotaSnapshot.Sound (quota : QuotaSnapshot) : Prop where
  fits : quota.Fits
  kind : ∀ kind window, quota.window kind = some window → window.kind = kind
  identified : quota.Identified

section
variable {sha256 : List UInt8 → List UInt8} {quota next : QuotaSnapshot}

theorem sound_empty : QuotaSnapshot.Sound {} where
  fits := QuotaSnapshot.fits_empty
  kind kind _ h := by cases kind <;> exact nomatch h
  identified ref _ h := by
    cases ref with
    | rolling kind => cases kind <;> exact nomatch h
    | supplemental id => exact nomatch h

theorem QuotaSnapshot.Sound.stored (h : quota.Sound) : quota.Stored where
  fits := h.fits
  kind := h.kind
  fingerprint edge kind window hwindow := h.identified (.rolling kind) window hwindow edge

/-- A supplemental window comes of one that was reported, and of the stored one with its identifier. -/
theorem find_normalizeSupplementalWindows {previous windows : List SupplementalQuotaWindow} {seen : List String}
    {inputs : List SupplementalQuotaWindowInput}
    (h : normalizeSupplementalWindows sha256 previous seen inputs = .ok windows) :
    ∀ window ∈ windows, ∃ input, QuotaWindow.normalize sha256 input
      ((previous.find? fun candidate => candidate.id = window.id).map (·.window)) = .ok window.window := by
  induction inputs generalizing seen windows with
  | nil =>
    obtain rfl := Except.ok.inj h
    exact List.forall_mem_nil _
  | cons input inputs ih =>
    rw [normalizeSupplementalWindows] at h
    dsimp only at h
    split at h
    case isTrue => cases h
    case isFalse =>
      obtain ⟨window, hwindow, h⟩ := bind_eq_ok.mp h
      obtain ⟨rest, hrest, h⟩ := bind_eq_ok.mp h
      obtain rfl := Except.ok.inj h
      exact List.forall_mem_cons.mpr ⟨⟨input.window, hwindow⟩, ih hrest⟩

variable {window : QuotaWindow}

/-- A window after a refresh was normalized against the stored one. -/
theorem find_of_refresh {data : QuotaRefreshData} {update : QuotaUpdate}
    (h : reduceAccountQuota sha256 quota (.ok data) 0 = .ok update) {ref : WindowRef}
    (hwindow : update.quota.find ref = some window) :
    ∃ input, QuotaWindow.normalize sha256 input (quota.find ref) = .ok window := by
  cases ref with
  | rolling kind =>
    obtain ⟨input, -, -, hnormalized⟩ := window_of_refresh h hwindow
    exact ⟨input, hnormalized⟩
  | supplemental id =>
    obtain ⟨found, hfound, rfl⟩ := Option.map_eq_some_iff.mp hwindow
    have hnormalize := (reduceAccountQuota_updated h).1
    obtain ⟨primary, -, hnormalize⟩ := bind_eq_ok.mp hnormalize
    obtain ⟨secondary, -, hnormalize⟩ := bind_eq_ok.mp hnormalize
    obtain ⟨supplemental, hsupplemental, hnormalize⟩ := bind_eq_ok.mp hnormalize
    have hquota := Except.ok.inj hnormalize
    rw [← hquota] at hfound
    unfold normalizeSupplemental at hsupplemental
    split at hsupplemental
    case isTrue => exact nomatch hsupplemental
    case isFalse =>
      obtain ⟨input, hinput⟩ := find_normalizeSupplementalWindows hsupplemental found (List.mem_of_find?_eq_some hfound)
      have hid : found.id = id := by simpa using List.find?_some hfound
      rw [hid] at hinput
      exact ⟨input, hinput⟩

/-- A refresh keeps the fingerprint of a window that stays exhausted. -/
theorem keepsExhaustion_normalize {input : QuotaWindowInput} {stored window : QuotaWindow}
    (h : QuotaWindow.normalize sha256 input (some stored) = .ok window)
    (hstored : (WindowEdge.exhausted.fingerprint stored).isSome = stored.isExhausted)
    (hbefore : stored.isExhausted = true) (hafter : window.isExhausted = true) :
    window.exhaustionTransitionFingerprint = stored.exhaustionTransitionFingerprint := by
  have hkept := fingerprint_normalize .exhausted h
  obtain ⟨fingerprint, hfingerprint⟩ := Option.isSome_iff_exists.mp (hstored.trans hbefore)
  have hheld : WindowEdge.exhausted.heldFingerprint (some stored) = some fingerprint := by
    unfold WindowEdge.heldFingerprint
    rw [Option.filter_some, if_pos (show WindowEdge.exhausted.holds stored = true from hbefore)]
    exact hfingerprint
  rw [hheld, show WindowEdge.exhausted.holds window = true from hafter] at hkept
  exact hkept.trans hfingerprint.symm

theorem exhaustionTransition_eq (h : window.isExhausted = true)
    (hidentified : (WindowEdge.exhausted.fingerprint window).isSome = window.isExhausted) :
    (window.exhaustionTransition sha256).map (·.fingerprint) = window.exhaustionTransitionFingerprint := by
  obtain ⟨fingerprint, hfingerprint⟩ := Option.isSome_iff_exists.mp (hidentified.trans h)
  have hstored : window.exhaustionTransitionFingerprint = some fingerprint := hfingerprint
  rw [QuotaWindow.exhaustionTransition, if_pos h, Option.map_some, QuotaWindow.exhaustionIdentity, hstored]
  rfl

/-- It is enough to compare the stored fingerprints. -/
theorem keepsExhaustion_of (hquota : quota.Identified) (hnext : next.Identified)
    (h : ∀ ref window window', quota.find ref = some window → next.find ref = some window' → window.isExhausted = true →
      window'.isExhausted = true → window'.exhaustionTransitionFingerprint = window.exhaustionTransitionFingerprint) :
    KeepsExhaustion sha256 quota next := by
  intro ref window window' hwindow hwindow' hbefore hafter
  rw [exhaustionTransition_eq hbefore (hquota ref window hwindow .exhausted),
    exhaustionTransition_eq hafter (hnext ref window' hwindow' .exhausted)]
  exact h ref window window' hwindow hwindow' hbefore hafter

/-! ### Refreshes and restarts -/

/-- Other events than refreshes keep all windows. -/
theorem find_other (hquota : quota.Fits) {change : QuotaEvent} (hchange : ∀ data, change ≠ .refreshed data)
    (h : change.step sha256 quota = some next) (ref : WindowRef) : next.find ref = quota.find ref := by
  have hsame : next.withoutError = quota.withoutError := by
    cases change with
    | refreshed data => exact absurd rfl (hchange data)
    | failed failure observedAtMs =>
      obtain ⟨update, hreduce, rfl⟩ := Option.map_eq_some_iff.mp
        (show ((QuotaEvent.failed failure observedAtMs).reduce sha256 quota).map (·.quota) = some next from h)
      have hresult : reduceAccountQuota sha256 quota (.error failure) observedAtMs.toNat = .ok update :=
        congrArg Except.ok (Option.some.inj hreduce)
      exact (reduceAccountQuota_failed hresult).1
    | restarted =>
      have hread : QuotaSnapshot.fromJson quota.toJson = some next := h
      rw [QuotaSnapshot.fromJson_toJson hquota] at hread
      rw [Option.some.inj hread]
  have hfind : ∀ quota : QuotaSnapshot, quota.withoutError.find ref = quota.find ref := by
    intro quota
    cases ref with
    | rolling kind => exact window_withoutError quota kind
    | supplemental id => rfl
  rw [← hfind next, hsame, hfind quota]

theorem sound_event (hquota : quota.Sound) {change : QuotaEvent} (h : change.step sha256 quota = some next) :
    next.Sound ∧ KeepsExhaustion sha256 quota next := by
  have hstored := stored_step hquota.stored h
  by_cases hrefreshed : ∃ data, change = .refreshed data
  · obtain ⟨data, rfl⟩ := hrefreshed
    obtain ⟨update, hreduce, rfl, -⟩ := QuotaEvent.step_refreshed h
    have hidentified : update.quota.Identified := by
      intro ref window hwindow edge
      obtain ⟨input, hnormalized⟩ := find_of_refresh hreduce hwindow
      exact isSome_fingerprint_normalize edge hnormalized
    refine ⟨⟨hstored.fits, hstored.kind, hidentified⟩, keepsExhaustion_of hquota.identified hidentified ?_⟩
    intro ref window window' hwindow hwindow' hbefore hafter
    obtain ⟨input, hnormalized⟩ := find_of_refresh hreduce hwindow'
    rw [hwindow] at hnormalized
    exact keepsExhaustion_normalize hnormalized (hquota.identified ref window hwindow .exhausted) hbefore hafter
  · have hfind := find_other hquota.fits (fun data hdata => hrefreshed ⟨data, hdata⟩) h
    have hidentified : next.Identified := fun ref window hwindow =>
      hquota.identified ref window ((hfind ref).symm.trans hwindow)
    refine ⟨⟨hstored.fits, hstored.kind, hidentified⟩, keepsExhaustion_of hquota.identified hidentified ?_⟩
    intro ref window window' hwindow hwindow' hbefore hafter
    rw [hfind ref, hwindow] at hwindow'
    rw [Option.some.inj hwindow']

/-! ### Headers -/

theorem fits_mergeWindow {stored observed : QuotaWindow} (hstored : stored.Fits) (hobserved : observed.Fits) :
    (mergeWindow (some stored) observed).Fits := by
  unfold mergeWindow
  dsimp only
  split
  case isTrue => exact hstored
  case isFalse =>
    refine ⟨hobserved.windowStartMs, fun n hn => ?_, fun n hn => ?_, fun n hn => ?_, hobserved.observedAtMs⟩
    case refine_1 =>
      change (if isNewCycle (some stored) observed then _ else _) = some n at hn
      split at hn
      case isTrue => exact hobserved.availableBasisPoints n hn
      case isFalse =>
        cases havailable : stored.availableBasisPoints with
        | none =>
          rw [havailable] at hn
          refine hobserved.availableBasisPoints n (Eq.trans ?_ hn)
          cases observed.availableBasisPoints <;> rfl
        | some available =>
          have hlt := hstored.availableBasisPoints available havailable
          rw [havailable] at hn
          cases hreported : observed.availableBasisPoints with
          | none =>
            rw [hreported] at hn
            exact Option.some.inj hn ▸ hlt
          | some reported =>
            rw [hreported] at hn
            exact Option.some.inj hn ▸ (Nat.min_le_left available reported).trans_lt hlt
    case refine_2 =>
      rcases Option.or_eq_some_iff.mp hn with hn | ⟨-, hn⟩
      · exact hobserved.resetAtMs n hn
      · exact hstored.resetAtMs n hn
    case refine_3 =>
      rcases Option.or_eq_some_iff.mp hn with hn | ⟨-, hn⟩
      · exact hobserved.windowMinutes n hn
      · exact hstored.windowMinutes n hn

variable {kind : QuotaWindowKind}

theorem window_of_kept (h : quota.keptWindow kind = some window) :
    quota.window kind = some window := by
  cases kind with
  | primary => exact h
  | secondary =>
    rw [QuotaSnapshot.keptWindow] at h
    split at h
    case isTrue => cases h
    case isFalse => exact h

/-- A window after headers: the stored one, the observed one, or both merged. -/
theorem window_observe {headers : CodexHeaders}
    (h : (quota.observe headers).window kind = some window) :
    quota.window kind = some window ∨
      (∃ observed, headers.window kind = some observed ∧ quota.window kind = none ∧ window = observed) ∨
      ∃ stored observed, quota.window kind = some stored ∧ headers.window kind = some observed ∧
        stored.observedAtMs ≤ observed.observedAtMs ∧ window = mergeWindow (some stored) observed := by
  unfold QuotaSnapshot.observe at h
  cases hmerged : mergeCodexQuotaHeaders quota headers with
  | none =>
    rw [hmerged] at h
    exact .inl h
  | some merged =>
    rw [hmerged, Option.getD_some, window_merge hmerged kind] at h
    cases hheaders : headers.window kind with
    | none =>
      rw [hheaders, Option.map_none, Option.none_or] at h
      exact .inl (window_of_kept h)
    | some observed =>
      rw [hheaders, Option.map_some, Option.some_or] at h
      obtain rfl := Option.some.inj h
      cases hquota : quota.window kind with
      | none => exact .inr (.inl ⟨observed, rfl, rfl, rfl⟩)
      | some stored =>
        by_cases hnewer : stored.observedAtMs ≤ observed.observedAtMs
        · exact .inr (.inr ⟨stored, observed, rfl, rfl, hnewer, rfl⟩)
        · rw [mergeWindow, if_pos (not_le.mp hnewer)]
          exact .inl rfl

variable {values : HeaderValues} {observedAtMs : UInt64}

theorem fits_observe (hquota : quota.Fits)
    (hobserved : ∀ kind observed, (values.parse sha256 observedAtMs).window kind = some observed → observed.Fits) :
    (quota.observe (values.parse sha256 observedAtMs)).Fits := by
  have hreported := reported_observe quota (values.parse sha256 observedAtMs)
  have hrest : (∀ n, (quota.observe (values.parse sha256 observedAtMs)).updatedAtMs = some n → n < 2 ^ 64) ∧
      ∀ error, (quota.observe (values.parse sha256 observedAtMs)).error = some error → error.occurredAtMs < 2 ^ 64 := by
    unfold QuotaSnapshot.observe
    cases hmerged : mergeCodexQuotaHeaders quota (values.parse sha256 observedAtMs) with
    | none => exact ⟨hquota.updatedAtMs, hquota.error⟩
    | some merged =>
      rw [Option.getD_some]
      rcases merge_rest hmerged with ⟨htime, herror, -⟩ | ⟨htime, herror⟩
      · rw [htime, herror]
        exact ⟨hquota.updatedAtMs, hquota.error⟩
      · rw [htime, herror]
        refine ⟨fun n hn => ?_, nofun⟩
        rw [← Option.some.inj hn]
        refine max_lt ?_ observedAtMs.toNat_lt
        cases hupdated : quota.updatedAtMs with
        | none => decide
        | some updatedAtMs => exact hquota.updatedAtMs updatedAtMs hupdated
  refine ⟨fun kind window hwindow => ?_, fun window hwindow => ?_, fun n hn => ?_, fun n hn => ?_, hrest.1, hrest.2⟩
  · rcases window_observe hwindow with hwindow | ⟨observed, hheaders, -, rfl⟩ | ⟨stored, observed, hstored, hheaders, -, rfl⟩
    · exact hquota.window kind window hwindow
    · exact hobserved kind window hheaders
    · exact fits_mergeWindow (hquota.window kind stored hstored) (hobserved kind observed hheaders)
  · have hsupplemental : (quota.observe (values.parse sha256 observedAtMs)).supplemental = quota.supplemental :=
      congrArg (·.2.1) hreported
    exact hquota.supplemental window (hsupplemental ▸ hwindow)
  · have hcredits : (quota.observe (values.parse sha256 observedAtMs)).resetCreditsAvailable = quota.resetCreditsAvailable :=
      congrArg Prod.fst hreported
    exact hquota.resetCreditsAvailable n (hcredits ▸ hn)
  · have hbalance : (quota.observe (values.parse sha256 observedAtMs)).directBalanceMicroUsd = quota.directBalanceMicroUsd :=
      congrArg (·.2.2) hreported
    exact hquota.directBalanceMicroUsd n (hbalance ▸ hn)

theorem normalize_of_headers
    {observed : QuotaWindow} (h : (values.parse sha256 observedAtMs).window kind = some observed) :
    ∃ headers : WindowHeaders, QuotaWindow.normalize sha256 (headers.input kind observedAtMs) none = .ok observed := by
  cases kind with
  | primary => exact ⟨values.primary, parseWindow_some h⟩
  | secondary => exact ⟨values.secondary, parseWindow_some h⟩

theorem sound_headers (hquota : quota.Sound)
    (hkeeps : (ObservedEvent.headers values observedAtMs).Keeps sha256 quota) :
    (quota.observe (values.parse sha256 observedAtMs)).Sound ∧
      KeepsExhaustion sha256 quota (quota.observe (values.parse sha256 observedAtMs)) := by
  have hexplicit : ∀ kind observed, (values.parse sha256 observedAtMs).window kind = some observed →
      observed.explicitlyFull = none := by
    intro kind observed hobserved
    obtain ⟨headers, hnormalized⟩ := normalize_of_headers hobserved
    exact (normalize_fields hnormalized).2.2.2
  have hfresh : ∀ kind observed, (values.parse sha256 observedAtMs).window kind = some observed →
      ∀ edge : WindowEdge, (edge.fingerprint observed).isSome = edge.holds observed := by
    intro kind observed hobserved edge
    obtain ⟨headers, hnormalized⟩ := normalize_of_headers hobserved
    exact isSome_fingerprint_normalize edge hnormalized
  have hsupplemental : (quota.observe (values.parse sha256 observedAtMs)).supplemental = quota.supplemental :=
    congrArg (·.2.1) (reported_observe quota (values.parse sha256 observedAtMs))
  have hfind : ∀ id, (quota.observe (values.parse sha256 observedAtMs)).find (.supplemental id) =
      quota.find (.supplemental id) := by
    intro id
    unfold QuotaSnapshot.find
    rw [hsupplemental]
  have hidentified : (quota.observe (values.parse sha256 observedAtMs)).Identified := by
    intro ref window hwindow edge
    cases ref with
    | supplemental id =>
      rw [hfind id] at hwindow
      exact hquota.identified (.supplemental id) window hwindow edge
    | rolling kind =>
      rcases window_observe hwindow with hwindow | ⟨observed, hheaders, -, rfl⟩ |
        ⟨stored, observed, hstored, hheaders, hnewer, rfl⟩
      · exact hquota.identified (.rolling kind) window hwindow edge
      · exact hfresh kind window hheaders edge
      · rw [(mergeWindow_newer hnewer).2.2 edge, hfresh kind observed hheaders edge]
        exact ((holds_merge (hkeeps kind stored observed hstored hheaders hnewer) (hexplicit kind observed hheaders)
          hnewer).1 edge).symm
  refine ⟨⟨fits_observe hquota.fits fun kind observed hobserved => ?_, fun kind window hwindow => ?_, hidentified⟩,
    keepsExhaustion_of hquota.identified hidentified fun ref window window' hwindow hwindow' hbefore hafter => ?_⟩
  · obtain ⟨headers, hnormalized⟩ := normalize_of_headers hobserved
    exact QuotaWindow.fits_normalize hnormalized
  · have hkind : ∀ observed, (values.parse sha256 observedAtMs).window kind = some observed → observed.kind = kind := by
      intro observed hobserved
      obtain ⟨headers, hnormalized⟩ := normalize_of_headers hobserved
      exact (normalize_fields hnormalized).1
    rcases window_observe hwindow with hwindow | ⟨observed, hheaders, -, rfl⟩ |
      ⟨stored, observed, hstored, hheaders, hnewer, rfl⟩
    · exact hquota.kind kind window hwindow
    · exact hkind window hheaders
    · rw [mergeWindow, if_neg (not_lt.mpr hnewer)]
      exact hkind observed hheaders
  · cases ref with
    | supplemental id =>
      rw [hfind id, hwindow] at hwindow'
      rw [Option.some.inj hwindow']
    | rolling kind =>
      rcases window_observe hwindow' with hsame | ⟨observed, -, hnone, -⟩ |
        ⟨stored, observed, hstored, hheaders, hnewer, rfl⟩
      · rw [Option.some.inj (hsame.symm.trans hwindow)]
      · exact nomatch hnone.symm.trans hwindow
      · obtain rfl := Option.some.inj (hstored.symm.trans hwindow)
        exact absurd ⟨hbefore, hafter⟩ (holds_merge (hkeeps kind stored observed hstored hheaders hnewer)
          (hexplicit kind observed hheaders) hnewer).2

end

/-! ### Runs -/

section
variable {sha256 : List UInt8 → List UInt8} {events : Nat → ObservedEvent} {snapshots : Nat → QuotaSnapshot} {n : Nat}

theorem sound_step {quota next : QuotaSnapshot} (hquota : quota.Sound) {event : ObservedEvent}
    (hkeeps : event.Keeps sha256 quota) (h : event.step sha256 quota = some next) :
    next.Sound ∧ KeepsExhaustion sha256 quota next := by
  cases event with
  | event change => exact sound_event hquota h
  | headers values observedAtMs =>
    obtain rfl := Option.some.inj h
    exact sound_headers hquota hkeeps

theorem sound_snapshot (h : ObservedHistory sha256 events snapshots n)
    (hkeeps : ∀ i < n, (events i).Keeps sha256 (snapshots i)) {i : Nat} (hi : i ≤ n) : (snapshots i).Sound := by
  induction i with
  | zero =>
    rw [h.start]
    exact sound_empty
  | succ i ih => exact (sound_step (ih (Nat.le_of_succ_le hi)) (hkeeps i hi) (h.step i hi)).1

/-- In every history whose headers keep the fingerprints, a window has the fingerprints of its edges, and one that
stays exhausted keeps the fingerprint of its exhaustion. -/
theorem exhaustion_identity_stable (h : ObservedHistory sha256 events snapshots n)
    (hkeeps : ∀ i < n, (events i).Keeps sha256 (snapshots i)) : IdentityStable sha256 snapshots n where
  identified _ hi := (sound_snapshot h hkeeps hi).identified
  keeps i hi := (sound_step (sound_snapshot h hkeeps (Nat.le_of_lt hi)) (hkeeps i hi) (h.step i hi)).2

end

/-! A window that is used up between two refreshes, as headers report. -/

def usedUpEvents : Nat → ObservedEvent
  | 0 => .event (.refreshed
      { primary := some { kind := .primary, availablePercent := some 4000, reset := some (.relativeSeconds 3600),
                          observedAtMs := 1000 }
        observedAtMs := 1000 })
  | 1 => .headers { primary := { usedPercent := some 10000 } } 2000
  | _ => .event (.refreshed
      { primary := some { kind := .primary, availablePercent := some 0, observedAtMs := 3000 }, observedAtMs := 3000 })

def usedUpSnapshots : Nat → QuotaSnapshot
  | 0 => {}
  | n + 1 => ((usedUpEvents n).step id (usedUpSnapshots n)).getD {}

theorem used_up_history : ObservedHistory id usedUpEvents usedUpSnapshots 3 where
  start := rfl
  step i hi := by interval_cases i <;> decide +kernel

theorem exhaustion_identity_stable_used_up : IdentityStable id usedUpSnapshots 3 := by
  refine exhaustion_identity_stable used_up_history fun i hi => ?_
  interval_cases i
  · trivial
  · have hkeeps : ((usedUpSnapshots 1).window .primary).all (fun stored =>
        ((HeaderValues.parse id { primary := { usedPercent := some 10000 } } 2000).window .primary).all fun observed =>
          decide (WindowMerge.Keeps stored observed)) = true := by decide +kernel
    intro kind stored observed hstored hobserved _
    cases kind with
    | primary =>
      rw [hstored, hobserved] at hkeeps
      exact of_decide_eq_true hkeeps
    | secondary => exact nomatch hobserved
  · trivial

/-- The fingerprint of the headers stays at the refresh. -/
example : (usedUpSnapshots 3).primary.bind (·.exhaustionTransitionFingerprint) =
    (usedUpSnapshots 2).primary.bind (·.exhaustionTransitionFingerprint) := by decide +kernel

/-! Headers that report an exhausted window again. -/

def exhaustedEvents : Nat → ObservedEvent
  | 0 => .event (.refreshed
      { primary := some { kind := .primary, availablePercent := some 0, reset := some (.relativeSeconds 3600),
                          observedAtMs := 1000 }
        observedAtMs := 1000 })
  | _ => .headers { primary := { usedPercent := some 10000 } } 2000

def exhaustedSnapshots : Nat → QuotaSnapshot
  | 0 => {}
  | n + 1 => ((exhaustedEvents n).step id (exhaustedSnapshots n)).getD {}

/-- The fingerprint of the exhausted window is not the one that the refresh gave it. -/
theorem identity_lost :
    ¬∀ (events : Nat → ObservedEvent) (snapshots : Nat → QuotaSnapshot) (n : Nat),
      ObservedHistory id events snapshots n →
      (∀ i j, i ≤ j → j < n → ∀ first second, (events i).observedAtMs = some first →
        (events j).observedAtMs = some second → first ≤ second) →
      IdentityStable id snapshots n := by
  intro h
  have hstable := h exhaustedEvents exhaustedSnapshots 2 ⟨rfl, fun i hi => by interval_cases i <;> decide +kernel⟩
    fun i j hij hj first second hfirst hsecond => by
      interval_cases j
      · obtain rfl := Nat.le_zero.mp hij
        exact Option.some.inj (hfirst.symm.trans hsecond) ▸ UInt64.le_refl first
      · obtain rfl := Option.some.inj hsecond
        interval_cases i
        · obtain rfl := Option.some.inj hfirst
          decide
        · obtain rfl := Option.some.inj hfirst
          decide
  obtain ⟨before, hbefore⟩ := Option.isSome_iff_exists.mp
    (show ((exhaustedSnapshots 1).find (.rolling .primary)).isSome = true by decide +kernel)
  obtain ⟨after, hafter⟩ := Option.isSome_iff_exists.mp
    (show ((exhaustedSnapshots 2).find (.rolling .primary)).isSome = true by decide +kernel)
  have hlost : ((exhaustedSnapshots 1).find (.rolling .primary)).any (fun before =>
      ((exhaustedSnapshots 2).find (.rolling .primary)).any fun after => before.isExhausted && after.isExhausted &&
        decide ((after.exhaustionTransition id).map (·.fingerprint) ≠
          (before.exhaustionTransition id).map (·.fingerprint))) = true := by decide +kernel
  rw [hbefore, hafter] at hlost
  obtain ⟨hexhausted, hne⟩ := Bool.and_eq_true_iff.mp hlost
  obtain ⟨hfirst, hsecond⟩ := Bool.and_eq_true_iff.mp hexhausted
  exact of_decide_eq_true hne (hstable.keeps 1 (by decide) (.rolling .primary) before after hbefore hafter hfirst hsecond)

end Zenith.Quota
