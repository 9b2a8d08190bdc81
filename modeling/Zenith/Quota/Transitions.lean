import Mathlib
import Zenith.Lib.Encoding
import Zenith.Lib.Episodes
import Zenith.Quota.PassiveHeaders

/-!
# Quota transitions

A window of `quota/windows.rs` as a provider reports it, and the two edges that the automations act on: the window
becomes fully available, or it is exhausted. `QuotaWindow.normalize` stores a fingerprint for each while it holds. It is
that of the stored window if the edge held there too, else it is computed from the report (`fingerprint_normalize`), and
fingerprints of reports at different times differ when the digest is injective (`fresh_inj`).

Percentages are in basis points. The SHA-256 digest is a parameter.
-/

namespace Zenith.Quota

open Zenith.Bytes Zenith.Tables Zenith.Text

def defaultFullThresholdBasisPoints : Nat := 9950

/-- `u64::saturating_mul` with 1000. -/
def secondsToMs (seconds : UInt64) : Nat := min (seconds.toNat * 1000) (2 ^ 64 - 1)

inductive ResetTime
  | absoluteUnixSeconds (seconds : UInt64)
  | absoluteUnixMilliseconds (milliseconds : UInt64)
  | relativeSeconds (seconds : UInt64)
deriving DecidableEq

def ResetTime.normalizeMs (observedAtMs : UInt64) : ResetTime → Nat
  | .absoluteUnixSeconds seconds => secondsToMs seconds
  | .absoluteUnixMilliseconds milliseconds => milliseconds.toNat
  | .relativeSeconds seconds => satAdd 64 observedAtMs.toNat (secondsToMs seconds)

/-- A window as it is reported. -/
structure QuotaWindowInput where
  kind : QuotaWindowKind
  availablePercent : Option Nat := none
  explicitlyFull : Option Bool := none
  reset : Option ResetTime := none
  windowMinutes : Option UInt32 := none
  providerCycleId : Option String := none
  observedAtMs : UInt64
deriving DecidableEq

inductive QuotaNormalizationError
  | invalidPercentage
  | mismatchedWindowKind
  | invalidSupplementalWindow
deriving DecidableEq, Repr

/-! ## Fingerprints -/

def QuotaWindowKind.debugName : QuotaWindowKind → String
  | .primary => "Primary"
  | .secondary => "Secondary"

def fingerprintText (label : String) (kind : QuotaWindowKind) (resetAtMs windowMinutes : Option Nat)
    (providerCycleId : Option String) (observedAtMs : Nat) : String :=
  label ++ kind.debugName ++ "\x00" ++ toString (resetAtMs.getD 0) ++ "\x00" ++ toString (windowMinutes.getD 0) ++
    "\x00" ++ trim (providerCycleId.getD "") ++ "\x00" ++ toString observedAtMs

section
variable (sha256 : List UInt8 → List UInt8)

def fingerprintOf (label : String) (kind : QuotaWindowKind) (resetAtMs windowMinutes : Option Nat)
    (providerCycleId : Option String) (observedAtMs : Nat) : String :=
  hexEncode (sha256 (utf8 (fingerprintText label kind resetAtMs windowMinutes providerCycleId observedAtMs)))

def transitionFingerprint : QuotaWindowKind → Option Nat → Option Nat → Option String → Nat → String :=
  fingerprintOf sha256 ""

def exhaustionTransitionFingerprint : QuotaWindowKind → Option Nat → Option Nat → Option String → Nat → String :=
  fingerprintOf sha256 "exhausted\x00"

end

/-! ## Edges -/

namespace QuotaWindow

variable (window : QuotaWindow)

def isFullyAvailable : Bool :=
  window.explicitlyFull.getD (window.availableBasisPoints.any (defaultFullThresholdBasisPoints ≤ ·))

def isExhausted : Bool := window.availableBasisPoints = some 0

end QuotaWindow

inductive WindowEdge
  | full
  | exhausted
deriving DecidableEq, Repr

namespace WindowEdge

def holds : WindowEdge → QuotaWindow → Bool
  | full => QuotaWindow.isFullyAvailable
  | exhausted => QuotaWindow.isExhausted

/-- Where the fingerprint of an edge is stored. -/
def fingerprint : WindowEdge → QuotaWindow → Option String
  | full => QuotaWindow.fullTransitionFingerprint
  | exhausted => QuotaWindow.exhaustionTransitionFingerprint

def label : WindowEdge → String
  | full => ""
  | exhausted => "exhausted\x00"

/-- The fingerprint of a report. -/
def fresh (sha256 : List UInt8 → List UInt8) (edge : WindowEdge) (input : QuotaWindowInput) : String :=
  fingerprintOf sha256 edge.label input.kind (input.reset.map (·.normalizeMs input.observedAtMs))
    (input.windowMinutes.map (·.toNat)) input.providerCycleId input.observedAtMs.toNat

/-- The fingerprint of an edge, as far as it holds. -/
def heldFingerprint (edge : WindowEdge) (window : Option QuotaWindow) : Option String :=
  (window.filter edge.holds).bind edge.fingerprint

end WindowEdge

namespace QuotaWindow

variable (sha256 : List UInt8 → List UInt8)

def normalize (input : QuotaWindowInput) (previous : Option QuotaWindow) :
    Except QuotaNormalizationError QuotaWindow :=
  if input.availablePercent.any (10000 < ·) then .error .invalidPercentage
  else
    let fullyAvailable :=
      input.explicitlyFull.getD (input.availablePercent.any (defaultFullThresholdBasisPoints ≤ ·))
    let resetAtMs := input.reset.map (·.normalizeMs input.observedAtMs)
    let windowMinutes := input.windowMinutes.map (·.toNat)
    let observedAtMs := input.observedAtMs.toNat
    let exhausted : Bool := input.availablePercent = some 0
    .ok
      { kind := input.kind
        providerCycleId := input.providerCycleId
        windowStartMs := windowMinutes.bind fun minutes => resetAtMs.map fun reset => reset - minutes * 60000
        availableBasisPoints := input.availablePercent
        explicitlyFull := input.explicitlyFull
        resetAtMs
        windowMinutes
        observedAtMs
        fullTransitionFingerprint :=
          if fullyAvailable then
            ((previous.filter isFullyAvailable).bind fullTransitionFingerprint).or
              (some (transitionFingerprint sha256 input.kind resetAtMs windowMinutes input.providerCycleId observedAtMs))
          else none
        exhaustionTransitionFingerprint :=
          if exhausted then
            ((previous.filter isExhausted).bind exhaustionTransitionFingerprint).or
              (some (Quota.exhaustionTransitionFingerprint sha256 input.kind resetAtMs windowMinutes
                input.providerCycleId observedAtMs))
          else none }

/-- The fingerprint of an old window without one has no provider cycle. -/
def fullTransitionFrom (window : QuotaWindow) (previous : Option QuotaWindow) : Option QuotaTransition := do
  let previous ← previous
  if previous.kind = window.kind && !previous.isFullyAvailable && window.isFullyAvailable then
    some
      { windowKind := window.kind
        fingerprint := window.fullTransitionFingerprint.getD
          (transitionFingerprint sha256 window.kind window.resetAtMs window.windowMinutes none window.observedAtMs)
        transitionedAtMs := window.observedAtMs }
  else none

/-- The fingerprint under which an exhausted window is known. -/
def exhaustionIdentity (window : QuotaWindow) : QuotaTransition where
  windowKind := window.kind
  fingerprint := window.exhaustionTransitionFingerprint.getD
    (Quota.exhaustionTransitionFingerprint sha256 window.kind window.resetAtMs window.windowMinutes
      window.providerCycleId window.observedAtMs)
  transitionedAtMs := window.observedAtMs

def exhaustionTransitionFrom (window : QuotaWindow) (previous : Option QuotaWindow) : Option QuotaTransition := do
  let previous ← previous
  if previous.kind = window.kind && !previous.isExhausted && window.isExhausted then
    some (window.exhaustionIdentity sha256)
  else none

def exhaustionTransition (window : QuotaWindow) : Option QuotaTransition :=
  if window.isExhausted then some (window.exhaustionIdentity sha256) else none

end QuotaWindow

def WindowEdge.transitionFrom (sha256 : List UInt8 → List UInt8) : WindowEdge → QuotaWindow → Option QuotaWindow →
    Option QuotaTransition
  | .full => QuotaWindow.fullTransitionFrom sha256
  | .exhausted => QuotaWindow.exhaustionTransitionFrom sha256

/-! ## What normalizing stores -/

section
variable {sha256 : List UInt8 → List UInt8} {input : QuotaWindowInput} {previous : Option QuotaWindow}
  {window : QuotaWindow}

theorem normalize_fields (h : QuotaWindow.normalize sha256 input previous = .ok window) :
    window.kind = input.kind ∧ window.observedAtMs = input.observedAtMs.toNat ∧
      window.availableBasisPoints = input.availablePercent ∧ window.explicitlyFull = input.explicitlyFull := by
  unfold QuotaWindow.normalize at h
  split at h
  case isTrue => exact nomatch h
  case isFalse =>
    obtain rfl := Except.ok.inj h
    exact ⟨rfl, rfl, rfl, rfl⟩

/-- The fingerprint of each edge is kept from the stored window, or drawn from the report. -/
theorem fingerprint_normalize (edge : WindowEdge) (h : QuotaWindow.normalize sha256 input previous = .ok window) :
    edge.fingerprint window =
      Episodes.observe (edge.heldFingerprint previous) (edge.holds window) (edge.fresh sha256 input) := by
  unfold QuotaWindow.normalize at h
  split at h
  case isTrue => exact nomatch h
  case isFalse =>
    obtain rfl := Except.ok.inj h
    cases edge with
    | full => rfl
    | exhausted => rfl

theorem isSome_fingerprint_normalize (edge : WindowEdge)
    (h : QuotaWindow.normalize sha256 input previous = .ok window) :
    (edge.fingerprint window).isSome = edge.holds window := by
  rw [fingerprint_normalize edge h]
  exact Episodes.isSome_observe _ _ _

/-- A window with a fingerprint is reported under it when its edge begins to hold. -/
theorem transitionFrom_eq (edge : WindowEdge) (hstored : (edge.fingerprint window).isSome = edge.holds window)
    {stored : QuotaWindow} (hkind : stored.kind = window.kind) :
    edge.transitionFrom sha256 window (some stored) =
      if !edge.holds stored && edge.holds window then
        (edge.fingerprint window).map fun fingerprint => ⟨window.kind, fingerprint, window.observedAtMs⟩
      else none := by
  cases edge with
  | full =>
    show (if stored.kind = window.kind && !stored.isFullyAvailable && window.isFullyAvailable then _ else none) = _
    rw [decide_eq_true hkind, Bool.true_and]
    refine ite_congr rfl (fun hedge => ?_) fun _ => rfl
    have hholds : window.isFullyAvailable = true := (Bool.and_eq_true_iff.mp hedge).2
    obtain ⟨fingerprint, hfingerprint⟩ := Option.isSome_iff_exists.mp (hstored.trans hholds)
    have hfull : window.fullTransitionFingerprint = some fingerprint := hfingerprint
    rw [hfull, hfingerprint]
    rfl
  | exhausted =>
    show (if stored.kind = window.kind && !stored.isExhausted && window.isExhausted then _ else none) = _
    rw [decide_eq_true hkind, Bool.true_and]
    refine ite_congr rfl (fun hedge => ?_) fun _ => rfl
    have hholds : window.isExhausted = true := (Bool.and_eq_true_iff.mp hedge).2
    obtain ⟨fingerprint, hfingerprint⟩ := Option.isSome_iff_exists.mp (hstored.trans hholds)
    have hexhausted : window.exhaustionTransitionFingerprint = some fingerprint := hfingerprint
    rw [QuotaWindow.exhaustionIdentity, hexhausted, hfingerprint]
    rfl

end

/-! ## Different reports -/

theorem nul_not_mem_toString (n : Nat) : '\x00' ∉ (toString n).toList := fun h =>
  absurd (isDigit_of_mem_toString h) (by decide)

/-- The text of a fingerprint tells its edge, its kind and its time. -/
theorem fingerprintText_inj {edge edge' : WindowEdge} {kind kind' : QuotaWindowKind}
    {resetAtMs resetAtMs' windowMinutes windowMinutes' : Option Nat} {cycle cycle' : Option String} {time time' : Nat}
    (h : fingerprintText edge.label kind resetAtMs windowMinutes cycle time =
      fingerprintText edge'.label kind' resetAtMs' windowMinutes' cycle' time') :
    edge = edge' ∧ kind = kind' ∧ time = time' := by
  have hchars := congrArg String.toList h
  simp only [fingerprintText, String.toList_append] at hchars
  have htime : time = time' := by
    have hnul : "\x00".toList = ['\x00'] := rfl
    rw [hnul, List.append_assoc _ ['\x00'], List.append_assoc _ ['\x00'] (toString time').toList] at hchars
    exact toString_injective (String.toList_injective
      (last_part_inj (nul_not_mem_toString time) (nul_not_mem_toString time') hchars))
  -- The first character tells the edge; that of the kind comes first, or after the label.
  have hfirst : ∀ (edge : WindowEdge) (kind : QuotaWindowKind) (rest : List Char),
      (edge.label.toList ++ (kind.debugName.toList ++ rest))[0]? =
        some (if edge = .exhausted then 'e' else if kind = .primary then 'P' else 'S') := by
    intro edge kind rest
    cases edge <;> cases kind <;> rfl
  have hlater : ∀ (kind : QuotaWindowKind) (rest : List Char),
      (WindowEdge.exhausted.label.toList ++ (kind.debugName.toList ++ rest))[10]? =
        some (if kind = .primary then 'P' else 'S') := by
    intro kind rest
    cases kind <;> rfl
  simp only [List.append_assoc] at hchars
  have heads := congrArg (·[0]?) hchars
  have heads' := congrArg (·[10]?) hchars
  rw [hfirst, hfirst] at heads
  refine and_assoc.mp ⟨?_, htime⟩
  cases edge <;> cases edge' <;> cases kind <;> cases kind' <;>
    first
      | exact ⟨rfl, rfl⟩
      | exact absurd heads (by decide)
      | skip
  all_goals
    rw [hlater, hlater] at heads'
    exact absurd heads' (by decide)

theorem fresh_inj {sha256 : List UInt8 → List UInt8} (hsha256 : Function.Injective sha256) {edge edge' : WindowEdge}
    {input input' : QuotaWindowInput} (h : edge.fresh sha256 input = edge'.fresh sha256 input') :
    edge = edge' ∧ input.kind = input'.kind ∧ input.observedAtMs = input'.observedAtMs := by
  obtain ⟨hedge, hkind, htime⟩ := fingerprintText_inj (utf8_injective (hsha256 (hexEncode_injective h)))
  exact ⟨hedge, hkind, UInt64.toNat_inj.mp htime⟩

end Zenith.Quota
