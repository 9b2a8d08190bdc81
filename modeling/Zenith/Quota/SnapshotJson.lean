import Mathlib
import Zenith.Lib.Json
import Zenith.Quota.Refresh

/-!
# The JSON of a quota snapshot

How a `QuotaSnapshot` is stored and read back: the derived `Serialize` and `Deserialize` of `quota/windows.rs`. Members
that are missing are read as `null`, and a snapshot without `limitReached` is one whose limit is not reached.

`Fits` are the widths of the number types, which every snapshot of the program keeps. What fits is read back as it was
stored (`QuotaSnapshot.fromJson_toJson`).
-/

namespace Zenith.Quota

open Zenith.Tables

/-! ## Numbers and optional members -/

/-- An unsigned number of a width. -/
def readUint (bits : Nat) : Json → Option Nat
  | .number (.nat n) => if n < 2 ^ bits then some n else none
  | _ => none

/-- A member that may be missing or `null`. -/
def readOption {α : Type} (read : Json → Option α) : Option Json → Option (Option α)
  | none => some none
  | some .null => some none
  | some value => (read value).map some

def ofOptionNat : Option Nat → Json
  | some n => .ofNat n
  | none => .null

def ofOptionBool : Option Bool → Json
  | some b => .bool b
  | none => .null

theorem readOption_nat {bits : Nat} {value : Option Nat} (h : ∀ n, value = some n → n < 2 ^ bits) :
    readOption (readUint bits) (some (ofOptionNat value)) = some value := by
  cases value with
  | none => rfl
  | some n =>
    show (readUint bits (.ofNat n)).map some = some (some n)
    rw [show readUint bits (.ofNat n) = some n from if_pos (h n rfl)]
    rfl

theorem readOption_string (value : Option String) :
    readOption Json.asStr (some (Json.ofOption value)) = some value := by
  cases value <;> rfl

theorem readOption_bool (value : Option Bool) :
    readOption Json.asBool (some (ofOptionBool value)) = some value := by
  cases value <;> rfl

/-! ## Windows -/

def QuotaWindowKind.toJson : QuotaWindowKind → Json
  | .primary => .string "primary"
  | .secondary => .string "secondary"

def QuotaWindowKind.fromJson : Json → Option QuotaWindowKind
  | .string "primary" => some .primary
  | .string "secondary" => some .secondary
  | _ => none

def DefaultServiceTier.toJson : DefaultServiceTier → Json
  | .standard => .string "standard"
  | .fast => .string "fast"

def DefaultServiceTier.fromJson : Json → Option DefaultServiceTier
  | .string "standard" => some .standard
  | .string "fast" => some .fast
  | _ => none

namespace QuotaWindow

def toJson (window : QuotaWindow) : Json := .ofFields [
  ("kind", window.kind.toJson),
  ("providerCycleId", .ofOption window.providerCycleId),
  ("windowStartMs", ofOptionNat window.windowStartMs),
  ("availableBasisPoints", ofOptionNat window.availableBasisPoints),
  ("explicitlyFull", ofOptionBool window.explicitlyFull),
  ("resetAtMs", ofOptionNat window.resetAtMs),
  ("windowMinutes", ofOptionNat window.windowMinutes),
  ("observedAtMs", .ofNat window.observedAtMs),
  ("fullTransitionFingerprint", .ofOption window.fullTransitionFingerprint),
  ("exhaustionTransitionFingerprint", .ofOption window.exhaustionTransitionFingerprint)]

def fromJson (value : Json) : Option QuotaWindow := do
  let kind ← (value.get "kind").bind QuotaWindowKind.fromJson
  let providerCycleId ← readOption Json.asStr (value.get "providerCycleId")
  let windowStartMs ← readOption (readUint 64) (value.get "windowStartMs")
  let availableBasisPoints ← readOption (readUint 16) (value.get "availableBasisPoints")
  let explicitlyFull ← readOption Json.asBool (value.get "explicitlyFull")
  let resetAtMs ← readOption (readUint 64) (value.get "resetAtMs")
  let windowMinutes ← readOption (readUint 32) (value.get "windowMinutes")
  let observedAtMs ← (value.get "observedAtMs").bind (readUint 64)
  let fullTransitionFingerprint ← readOption Json.asStr (value.get "fullTransitionFingerprint")
  let exhaustionTransitionFingerprint ← readOption Json.asStr (value.get "exhaustionTransitionFingerprint")
  return { kind, providerCycleId, windowStartMs, availableBasisPoints, explicitlyFull, resetAtMs, windowMinutes,
           observedAtMs, fullTransitionFingerprint, exhaustionTransitionFingerprint }

/-- The widths of the numbers of a window. -/
structure Fits (window : QuotaWindow) : Prop where
  windowStartMs : ∀ n, window.windowStartMs = some n → n < 2 ^ 64
  availableBasisPoints : ∀ n, window.availableBasisPoints = some n → n < 2 ^ 16
  resetAtMs : ∀ n, window.resetAtMs = some n → n < 2 ^ 64
  windowMinutes : ∀ n, window.windowMinutes = some n → n < 2 ^ 32
  observedAtMs : window.observedAtMs < 2 ^ 64

theorem fromJson_toJson {window : QuotaWindow} (h : window.Fits) : fromJson window.toJson = some window := by
  have hkind : (window.toJson.get "kind").bind QuotaWindowKind.fromJson = some window.kind := by
    cases window with
    | mk kind => cases kind <;> simp [toJson, Json.Fields.get_cons, QuotaWindowKind.toJson, QuotaWindowKind.fromJson]
  have hobserved : (window.toJson.get "observedAtMs").bind (readUint 64) = some window.observedAtMs := by
    simp [toJson, Json.Fields.get_cons, readUint, Json.ofNat]
    exact h.observedAtMs
  unfold fromJson
  rw [hkind, hobserved]
  simp [toJson, Json.Fields.get_cons, readOption_string, readOption_bool, readOption_nat h.windowStartMs,
    readOption_nat h.availableBasisPoints, readOption_nat h.resetAtMs, readOption_nat h.windowMinutes]

end QuotaWindow

namespace SupplementalQuotaWindow

/-- Without a service tier there is no member for it. -/
def toJson (window : SupplementalQuotaWindow) : Json := .ofFields <|
  [("id", Json.string window.id), ("label", .string window.label), ("window", window.window.toJson)] ++
    (window.serviceTier.map fun tier => ("serviceTier", tier.toJson)).toList

def fromJson (value : Json) : Option SupplementalQuotaWindow := do
  let id ← (value.get "id").bind Json.asStr
  let label ← (value.get "label").bind Json.asStr
  let serviceTier ← readOption DefaultServiceTier.fromJson (value.get "serviceTier")
  let window ← (value.get "window").bind QuotaWindow.fromJson
  return { id, label, serviceTier, window }

theorem fromJson_toJson {window : SupplementalQuotaWindow} (h : window.window.Fits) :
    fromJson window.toJson = some window := by
  obtain ⟨id, label, serviceTier, inner⟩ := window
  have hinner := QuotaWindow.fromJson_toJson h
  cases serviceTier with
  | none => simp [fromJson, toJson, Json.Fields.get_cons, readOption, hinner]
  | some tier =>
    cases tier <;>
      simp [fromJson, toJson, Json.Fields.get_cons, readOption, DefaultServiceTier.toJson,
        DefaultServiceTier.fromJson, hinner]

end SupplementalQuotaWindow

/-! ## Snapshots -/

namespace QuotaErrorState

def toJson (error : QuotaErrorState) : Json := .ofFields [
  ("code", .string error.code),
  ("occurredAtMs", .ofNat error.occurredAtMs)]

def fromJson (value : Json) : Option QuotaErrorState := do
  let code ← (value.get "code").bind Json.asStr
  let occurredAtMs ← (value.get "occurredAtMs").bind (readUint 64)
  return { code, occurredAtMs }

theorem fromJson_toJson {error : QuotaErrorState} (h : error.occurredAtMs < 2 ^ 64) :
    fromJson error.toJson = some error := by
  have hread : readUint 64 (.ofNat error.occurredAtMs) = some error.occurredAtMs := if_pos h
  simp [fromJson, toJson, Json.Fields.get_cons, hread]

end QuotaErrorState

namespace QuotaSnapshot

def toJson (quota : QuotaSnapshot) : Json := .ofFields [
  ("primary", (quota.primary.map (·.toJson)).getD .null),
  ("secondary", (quota.secondary.map (·.toJson)).getD .null),
  ("supplemental", .array (quota.supplemental.map (·.toJson))),
  ("limitReached", .bool quota.limitReached),
  ("resetCreditsAvailable", ofOptionNat quota.resetCreditsAvailable),
  ("directBalanceMicroUsd", ofOptionNat quota.directBalanceMicroUsd),
  ("updatedAtMs", ofOptionNat quota.updatedAtMs),
  ("error", (quota.error.map (·.toJson)).getD .null)]

def fromJson (value : Json) : Option QuotaSnapshot := do
  let primary ← readOption QuotaWindow.fromJson (value.get "primary")
  let secondary ← readOption QuotaWindow.fromJson (value.get "secondary")
  let supplemental ←
    match value.get "supplemental" with
    | none => some []
    | some windows => windows.asArray.bind fun windows => windows.mapM SupplementalQuotaWindow.fromJson
  let limitReached ←
    match value.get "limitReached" with
    | none => some false
    | some reached => reached.asBool
  let resetCreditsAvailable ← readOption (readUint 32) (value.get "resetCreditsAvailable")
  let directBalanceMicroUsd ← readOption (readUint 64) (value.get "directBalanceMicroUsd")
  let updatedAtMs ← readOption (readUint 64) (value.get "updatedAtMs")
  let error ← readOption QuotaErrorState.fromJson (value.get "error")
  return { primary, secondary, supplemental, limitReached, resetCreditsAvailable, directBalanceMicroUsd, updatedAtMs,
           error }

/-- The widths of the numbers of a snapshot. -/
structure Fits (quota : QuotaSnapshot) : Prop where
  window : ∀ kind window, quota.window kind = some window → window.Fits
  supplemental : ∀ window ∈ quota.supplemental, window.window.Fits
  resetCreditsAvailable : ∀ n, quota.resetCreditsAvailable = some n → n < 2 ^ 32
  directBalanceMicroUsd : ∀ n, quota.directBalanceMicroUsd = some n → n < 2 ^ 64
  updatedAtMs : ∀ n, quota.updatedAtMs = some n → n < 2 ^ 64
  error : ∀ error, quota.error = some error → error.occurredAtMs < 2 ^ 64

theorem fits_empty : Fits {} where
  window kind _ h := by cases kind <;> exact nomatch h
  supplemental := List.forall_mem_nil _
  resetCreditsAvailable := nofun
  directBalanceMicroUsd := nofun
  updatedAtMs := nofun
  error := nofun

/-- An optional value that is no `null` when it is there. -/
theorem readOption_map {α : Type} {read : Json → Option α} {print : α → Json} {value : Option α}
    (hnull : ∀ a, print a ≠ .null) (hread : ∀ a, value = some a → read (print a) = some a) :
    readOption read (some ((value.map print).getD .null)) = some value := by
  cases value with
  | none => rfl
  | some a =>
    rw [Option.map_some, Option.getD_some]
    unfold readOption
    split
    case h_1 h => exact nomatch h
    case h_2 h => exact absurd (Option.some.inj h) (hnull a)
    case h_3 h =>
      rw [← Option.some.inj h, hread a rfl]
      rfl

theorem fromJson_toJson {quota : QuotaSnapshot} (h : quota.Fits) : fromJson quota.toJson = some quota := by
  have hwindow : ∀ kind, readOption QuotaWindow.fromJson (some (((quota.window kind).map (·.toJson)).getD .null)) =
      some (quota.window kind) := fun kind =>
    readOption_map (fun _ => nofun) fun window hwindow => QuotaWindow.fromJson_toJson (h.window kind window hwindow)
  have herror : readOption QuotaErrorState.fromJson (some ((quota.error.map (·.toJson)).getD .null)) =
      some quota.error :=
    readOption_map (fun _ => nofun) fun error herror => QuotaErrorState.fromJson_toJson (h.error error herror)
  have hsupplemental : (quota.supplemental.map (·.toJson)).mapM SupplementalQuotaWindow.fromJson =
      some quota.supplemental := by
    have hall := h.supplemental
    generalize quota.supplemental = windows at hall
    induction windows with
    | nil => rfl
    | cons window windows ih =>
      rw [List.forall_mem_cons] at hall
      rw [List.map_cons, List.mapM_cons, SupplementalQuotaWindow.fromJson_toJson hall.1, ih hall.2]
      rfl
  have hprimary := hwindow .primary
  have hsecondary := hwindow .secondary
  simp only [QuotaSnapshot.window] at hprimary hsecondary
  simp [fromJson, toJson, Json.Fields.get_cons, Json.asArray, Json.asBool, hprimary, hsecondary, hsupplemental, herror,
    readOption_nat h.resetCreditsAvailable, readOption_nat h.directBalanceMicroUsd, readOption_nat h.updatedAtMs]

end QuotaSnapshot

/-! ## Refreshes -/

theorem secondsToMs_lt (seconds : UInt64) : secondsToMs seconds < 2 ^ 64 :=
  Nat.lt_of_le_of_lt (Nat.min_le_right _ _) (by decide)

theorem ResetTime.normalizeMs_lt (observedAtMs : UInt64) (reset : ResetTime) :
    reset.normalizeMs observedAtMs < 2 ^ 64 := by
  cases reset with
  | absoluteUnixSeconds seconds => exact secondsToMs_lt seconds
  | absoluteUnixMilliseconds milliseconds => exact milliseconds.toNat_lt
  | relativeSeconds seconds => exact satAdd_lt 64 _ _

section
variable {sha256 : List UInt8 → List UInt8}

theorem QuotaWindow.fits_normalize {input : QuotaWindowInput} {previous : Option QuotaWindow} {window : QuotaWindow}
    (h : QuotaWindow.normalize sha256 input previous = .ok window) : window.Fits := by
  unfold QuotaWindow.normalize at h
  split at h
  case isTrue => exact nomatch h
  case isFalse hpercent =>
    obtain rfl := Except.ok.inj h
    have hreset : ∀ n, input.reset.map (·.normalizeMs input.observedAtMs) = some n → n < 2 ^ 64 := by
      intro n hn
      obtain ⟨reset, -, rfl⟩ := Option.map_eq_some_iff.mp hn
      exact reset.normalizeMs_lt _
    constructor
    case windowStartMs =>
      intro n hn
      obtain ⟨minutes, -, hstart⟩ := Option.bind_eq_some_iff.mp hn
      obtain ⟨reset, hsome, rfl⟩ := Option.map_eq_some_iff.mp hstart
      exact Nat.lt_of_le_of_lt (Nat.sub_le _ _) (hreset reset hsome)
    case availableBasisPoints =>
      intro n hn
      have havailable : input.availablePercent = some n := hn
      rw [havailable, Option.any_some, decide_eq_true_eq, not_lt] at hpercent
      exact Nat.lt_of_le_of_lt hpercent (by decide)
    case resetAtMs => exact hreset
    case windowMinutes =>
      intro n hn
      obtain ⟨minutes, -, rfl⟩ := Option.map_eq_some_iff.mp hn
      exact minutes.toNat_lt
    case observedAtMs => exact input.observedAtMs.toNat_lt

theorem fits_normalizeSupplementalWindows {previous : List SupplementalQuotaWindow} {seen : List String}
    {inputs : List SupplementalQuotaWindowInput} {windows : List SupplementalQuotaWindow}
    (h : normalizeSupplementalWindows sha256 previous seen inputs = .ok windows) :
    ∀ window ∈ windows, window.window.Fits := by
  induction inputs generalizing seen windows with
  | nil =>
    obtain rfl := Except.ok.inj h
    exact List.forall_mem_nil _
  | cons input inputs ih =>
    rw [normalizeSupplementalWindows] at h
    dsimp only at h
    split at h
    case isTrue => exact nomatch h
    case isFalse =>
      obtain ⟨window, hwindow, h⟩ := bind_eq_ok.mp h
      obtain ⟨rest, hrest, h⟩ := bind_eq_ok.mp h
      obtain rfl := Except.ok.inj h
      exact List.forall_mem_cons.mpr ⟨QuotaWindow.fits_normalize hwindow, ih hrest⟩

theorem fits_normalize {data : QuotaRefreshData} {previous quota : QuotaSnapshot}
    (h : data.normalize sha256 previous = .ok quota) : quota.Fits := by
  have hwindows := normalize_window h
  obtain ⟨primary, -, h⟩ := bind_eq_ok.mp h
  obtain ⟨secondary, -, h⟩ := bind_eq_ok.mp h
  obtain ⟨supplemental, hsupplemental, h⟩ := bind_eq_ok.mp h
  obtain rfl := Except.ok.inj h
  have hnat : ∀ {value : Option UInt64} {n : Nat}, value.map (·.toNat) = some n → n < 2 ^ 64 := by
    intro value n hn
    obtain ⟨word, -, rfl⟩ := Option.map_eq_some_iff.mp hn
    exact word.toNat_lt
  constructor
  case window =>
    intro kind window hwindow
    have hslot := hwindows kind
    rw [hwindow] at hslot
    obtain ⟨input, -, -, hnormalized⟩ := normalizeWindow_some hslot
    exact QuotaWindow.fits_normalize hnormalized
  case supplemental =>
    unfold normalizeSupplemental at hsupplemental
    split at hsupplemental
    case isTrue => exact nomatch hsupplemental
    case isFalse => exact fits_normalizeSupplementalWindows hsupplemental
  case resetCreditsAvailable =>
    intro n hn
    obtain ⟨word, -, rfl⟩ := Option.map_eq_some_iff.mp hn
    exact word.toNat_lt
  case directBalanceMicroUsd => exact fun n => hnat
  case updatedAtMs =>
    intro n hn
    obtain rfl := Option.some.inj hn
    exact data.observedAtMs.toNat_lt
  case error => exact nofun

/-- A refresh keeps the widths. -/
theorem fits_reduceAccountQuota {previous : QuotaSnapshot} {result : Except QuotaRefreshFailure QuotaRefreshData}
    {failureObservedAtMs : Nat} {update : QuotaUpdate} (hprevious : previous.Fits) (htime : failureObservedAtMs < 2 ^ 64)
    (h : reduceAccountQuota sha256 previous result failureObservedAtMs = .ok update) : update.quota.Fits := by
  cases result with
  | ok data => exact fits_normalize (reduceAccountQuota_updated h).1
  | error failure =>
    obtain rfl := Except.ok.inj h
    refine ⟨fun kind window hwindow => hprevious.window kind window ?_, hprevious.supplemental,
      hprevious.resetCreditsAvailable, hprevious.directBalanceMicroUsd, hprevious.updatedAtMs,
      fun _ herror => Option.some.inj herror ▸ htime⟩
    cases kind <;> exact hwindow

end

end Zenith.Quota
