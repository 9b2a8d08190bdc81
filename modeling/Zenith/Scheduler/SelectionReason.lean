import Zenith.Scheduler.Selection

/-!
# The reason of a selection

`comparePreference` decides by the first criterion of a chain on which two candidates differ, and `selectionReason` tells
which one that was. The source has the chain twice, once as comparisons put together and once as a ladder of conditions.
`criteria` is the chain as a list; `selectionReason_faithful` says that both are that list.
-/

namespace Zenith.Scheduler

/-- One comparison of the chain, and the reason that names it. -/
structure Criterion where
  reason : SelectionReason
  compare : RuntimeCandidate → RuntimeCandidate → Ordering

/-- The criteria after each other. -/
def comparePreferenceBy (criteria : List Criterion) (left right : RuntimeCandidate) : Ordering :=
  criteria.foldr (fun criterion rest => (criterion.compare left right).then rest) .eq

def Differs (left right : RuntimeCandidate) (criterion : Criterion) : Bool := criterion.compare left right ≠ .eq

def sourceRole : Criterion where
  reason := .sourceRole
  compare left right := (compare (routingTier left) (routingTier right)).then
    (compare (candidateKindPreference left) (candidateKindPreference right))

def manualPriority : Criterion := ⟨.manualPriority, compareApiSourcePriority⟩

def stableTieBreak : Criterion := ⟨.stableTieBreak, fun left right => compare right.id left.id⟩

namespace PoolScheduler

/-- A criterion of some strategies only. -/
def onlyIf (condition : Prop) [Decidable condition] (criterion : Criterion) : List Criterion := if condition then [criterion] else []

def criteria (s : PoolScheduler) (lane : InFlightLane) : List Criterion :=
  [sourceRole, manualPriority] ++
    onlyIf (s.routingStrategy = .subscriptionExpiry) ⟨.subscriptionExpiry, s.compareSubscriptionExpiry⟩ ++
    onlyIf (s.routingStrategy = .subscriptionPlan) ⟨.subscriptionPlan, s.compareSubscriptionPlan⟩ ++
    [⟨.quotaHeadroom, s.compareQuotaAndReset⟩, ⟨.parallelLoad, fun left right => s.compareLoad left right lane⟩] ++
    onlyIf (s.routingStrategy ≠ .quotaHighest) ⟨.fairRotation, fun left right => s.fairRotation left right lane⟩ ++
    [stableTieBreak]

section
variable {s : PoolScheduler} {lane : InFlightLane} {left right : RuntimeCandidate}

theorem comparePreference_eq_criteria :
    s.comparePreference left right lane = comparePreferenceBy (s.criteria lane) left right := by
  unfold comparePreference criteria onlyIf
  cases s.routingStrategy <;>
    simp only [comparePreferenceBy, sourceRole, manualPriority, stableTieBreak, Ordering.then_assoc, List.foldr_cons, List.foldr_nil,
      List.nil_append, List.append_nil, List.cons_append, Ordering.then_eq, if_true, reduceCtorEq, if_false, ne_eq, not_true, not_false_eq_true]

/-- The first criterion on which the candidates differ decides. -/
theorem comparePreferenceBy_eq {criteria : List Criterion} {criterion : Criterion}
    (h : criteria.find? (Differs left right) = some criterion) :
    comparePreferenceBy criteria left right = criterion.compare left right := by
  induction criteria with
  | nil => exact nomatch h
  | cons first rest ih =>
    rw [List.find?_cons] at h
    cases hfirst : Differs left right first with
    | true =>
      rw [hfirst] at h
      obtain rfl := Option.some.inj h
      have hne : first.compare left right ≠ .eq := of_decide_eq_true hfirst
      show (first.compare left right).then _ = first.compare left right
      cases hcompare : first.compare left right with
      | eq => exact absurd hcompare hne
      | lt => rfl
      | gt => rfl
    | false =>
      rw [hfirst] at h
      have heq : first.compare left right = .eq := Decidable.not_not.mp (of_decide_eq_false hfirst)
      show (first.compare left right).then (comparePreferenceBy rest left right) = _
      rw [heq, Ordering.eq_then, ih h]

/-- The reason that a list of criteria gives. -/
def reasonOf (criteria : List Criterion) (left right : RuntimeCandidate) : Option SelectionReason :=
  (criteria.find? (Differs left right)).map Criterion.reason

theorem reasonOf_cons (criterion : Criterion) (rest : List Criterion) : reasonOf (criterion :: rest) left right =
    if criterion.compare left right ≠ .eq then some criterion.reason else reasonOf rest left right := by
  unfold reasonOf
  rw [List.find?_cons]
  by_cases h : criterion.compare left right = .eq
  · rw [Differs, decide_eq_false (fun hne => hne h), if_neg (fun hne => hne h)]
  · rw [Differs, decide_eq_true h, if_pos h]
    rfl

theorem reasonOf_onlyIf {condition : Prop} [Decidable condition] (criterion : Criterion) (rest : List Criterion) :
    reasonOf (onlyIf condition criterion ++ rest) left right =
      if condition ∧ criterion.compare left right ≠ .eq then some criterion.reason else reasonOf rest left right := by
  unfold onlyIf
  by_cases h : condition
  · rw [if_pos h, List.singleton_append, reasonOf_cons]
    simp only [h, true_and]
  · rw [if_neg h, List.nil_append, if_neg fun hboth => h hboth.1]

theorem sourceRole_ne_eq : sourceRole.compare left right ≠ .eq ↔
    routingTier left ≠ routingTier right ∨ candidateKindPreference left ≠ candidateKindPreference right := by
  show Ordering.then _ _ ≠ .eq ↔ _
  rw [ne_eq, Ordering.then_eq_eq, Std.compare_eq_iff_eq, Std.compare_eq_iff_eq, not_and_or]

theorem compareLoad_ne_eq : s.compareLoad left right lane ≠ .eq ↔
    left.kind = .oauthAccount ∧ right.kind = .oauthAccount ∧ s.inFlightCount left.id lane ≠ s.inFlightCount right.id lane := by
  unfold compareLoad
  by_cases hkind : left.kind = .oauthAccount ∧ right.kind = .oauthAccount
  · rw [if_pos hkind, ne_eq, Std.compare_eq_iff_eq, ← and_assoc, and_iff_right hkind, ne_comm]
  · rw [if_neg hkind, ← and_assoc]
    exact iff_of_false (fun hne => hne rfl) fun hboth => hkind hboth.1

/-- Between two candidates the reason names the criterion that decides. -/
theorem selectionReason_faithful (s : PoolScheduler) (lane : InFlightLane) (selected runnerUp : RuntimeCandidate)
    (h : selected.id ≠ runnerUp.id) :
    (∀ left right, s.comparePreference left right lane = comparePreferenceBy (s.criteria lane) left right) ∧
      ∃ criterion, (s.criteria lane).find? (Differs selected runnerUp) = some criterion ∧
        s.selectionReason selected runnerUp lane = criterion.reason ∧
        s.comparePreference selected runnerUp lane = criterion.compare selected runnerUp := by
  refine ⟨fun left right => comparePreference_eq_criteria, ?_⟩
  have htie : stableTieBreak.compare selected runnerUp ≠ .eq := fun heq => h (Std.compare_eq_iff_eq.mp heq).symm
  have hreason : reasonOf (s.criteria lane) selected runnerUp = some (s.selectionReason selected runnerUp lane) := by
    unfold criteria selectionReason
    simp only [List.append_assoc, List.cons_append, List.nil_append, reasonOf_cons, reasonOf_onlyIf, sourceRole_ne_eq, compareLoad_ne_eq,
      if_pos htie, apply_ite some]
    rfl
  obtain ⟨criterion, hfind, hname⟩ := Option.map_eq_some_iff.mp hreason
  exact ⟨criterion, hfind, hname.symm, comparePreference_eq_criteria.trans (comparePreferenceBy_eq hfind)⟩

end

def plainAccount (id : String) : RuntimeCandidate := { id, kind := .oauthAccount, sourceId := "pool" }

theorem selectionReason_faithful_sample : ∃ criterion,
    (new.criteria .text).find? (Differs (plainAccount "a") (plainAccount "b")) = some criterion ∧
      new.selectionReason (plainAccount "a") (plainAccount "b") .text = criterion.reason ∧
      new.comparePreference (plainAccount "a") (plainAccount "b") .text = criterion.compare (plainAccount "a") (plainAccount "b") :=
  (selectionReason_faithful new .text (plainAccount "a") (plainAccount "b") (by decide)).2

end PoolScheduler

end Zenith.Scheduler
