import Zenith.Scheduler.SelectionContract

/-!
# The routing preference as an order

`comparePreference` is antisymmetric and separates candidates with distinct ids, but it is not
transitive on every set: quotas are compared in tolerance bands, and a chain of small differences
adds up to a large one.

The comparator is taken apart into a consistent outer part (`standing`: tier, kind, API priority,
subscription, having a quota at all), the quota bands, and a consistent tie break (`tieBreak`:
load, rotation, id). A violation of transitivity is a cycle of three candidates of one standing
with available quotas. `overtakes` says when, of two such candidates, the one with less quota is
preferred; `preference_strictOrderOn_iff` says that the preference is a strict total order exactly
on the sets in which overtaking is consistent along the quotas.
-/

namespace Zenith.Scheduler

open Std Zenith.Text Zenith.Tables Zenith.Comparators

/-- Comparing negated numbers reverses the comparison. -/
theorem compare_neg_neg (a b : Nat) : compare (-(a : Int)) (-(b : Int)) = compare b a := by
  rcases Nat.lt_trichotomy a b with h | rfl | h
  · rw [compare_gt_iff_gt.mpr (show b > a from h), compare_gt_iff_gt]
    omega
  · rw [Std.compare_self, Std.compare_self]
  · rw [compare_lt_iff_lt.mpr (show b < a from h), compare_lt_iff_lt]
    omega

namespace PoolScheduler

variable (s : PoolScheduler) (lane : InFlightLane)

/-! ## The consistent parts -/

def apiPriority (candidate : RuntimeCandidate) : Int :=
  if candidate.kind = .apiSource then candidate.priority else 0

/-- Under `subscriptionExpiry`, whether the expiry of an account is known. -/
def subscriptionKnown (candidate : RuntimeCandidate) : Nat :=
  if s.routingStrategy = .subscriptionExpiry ∧ candidate.kind = .oauthAccount ∧
      s.subscriptionExpiresAtMs[candidate.id]?.isSome then 1 else 0

/-- The expiry or plan rank of an account, where the strategy asks for it; smaller is preferred. -/
def subscriptionValue (candidate : RuntimeCandidate) : Int :=
  if candidate.kind = .apiSource then 0
  else
    match s.routingStrategy with
    | .subscriptionExpiry => -((s.subscriptionExpiresAtMs[candidate.id]?.getD 0 : Nat) : Int)
    | .subscriptionPlan => -(s.planRank candidate : Int)
    | .adaptive | .quotaHighest => 0

def quotaKnown (candidate : RuntimeCandidate) : Nat :=
  match s.routingQuota candidate with
  | .available _ => 1
  | _ => 0

/-- What is compared before the amount of quota. -/
def standing : RuntimeCandidate → RuntimeCandidate → Ordering :=
  compareLex (compareOn routingTier) (compareLex (compareOn candidateKindPreference)
    (compareLex (compareOn apiPriority) (compareLex (compareOn s.subscriptionKnown)
      (compareLex (compareOn s.subscriptionValue) (compareOn s.quotaKnown)))))

def loadKey (candidate : RuntimeCandidate) : Int :=
  if candidate.kind = .apiSource then 0 else -(s.inFlightCount candidate.id lane : Int)

def rotationKey (candidate : RuntimeCandidate) : Int :=
  if s.routingStrategy = .quotaHighest ∨ candidate.kind = .apiSource then 0
  else -(s.rotationDispatchCount candidate lane : Int)

def compareIds (left right : RuntimeCandidate) : Ordering := compare right.id left.id

/-- What is compared after the quota: less load, fewer dispatches, then the smaller id. -/
def tieBreak : RuntimeCandidate → RuntimeCandidate → Ordering :=
  compareLex (compareOn (s.loadKey lane)) (compareLex (compareOn (s.rotationKey lane)) compareIds)

instance : TransCmp s.standing := inferInstanceAs (TransCmp (compareLex _ _))

instance : TransCmp compareIds :=
  inferInstanceAs (TransCmp fun left right => compareOn RuntimeCandidate.id right left)

instance : TransCmp (s.tieBreak lane) := inferInstanceAs (TransCmp (compareLex _ _))

/-! ## The comparator in parts -/

variable {left right : RuntimeCandidate}

theorem kind_eq_of_preference (h : compare (candidateKindPreference left) (candidateKindPreference right) = .eq) :
    left.kind = right.kind := by
  rw [Std.compare_eq_iff_eq] at h
  cases hl : left.kind <;> cases hr : right.kind <;>
    simp [candidateKindPreference, hl, hr] at h ⊢

/-- The subscription part of a strategy is the comparison of two keys. -/
theorem compareSubscriptionExpiry_eq
    (hstrategy : s.routingStrategy = .subscriptionExpiry) (hkind : left.kind = right.kind) :
    s.compareSubscriptionExpiry left right =
      (compare (s.subscriptionKnown left) (s.subscriptionKnown right)).then
        (compare (s.subscriptionValue left) (s.subscriptionValue right)) := by
  unfold compareSubscriptionExpiry subscriptionKnown subscriptionValue
  cases hr : right.kind with
  | apiSource => simp [hkind, hr]
  | oauthAccount =>
    rw [hr] at hkind
    simp only [hkind, hstrategy]
    cases s.subscriptionExpiresAtMs[left.id]? with
    | none =>
      cases s.subscriptionExpiresAtMs[right.id]? with
      | none => simp
      | some expires => rfl
    | some expires =>
      cases s.subscriptionExpiresAtMs[right.id]? with
      | none => rfl
      | some expires' => simp [compare_neg_neg]

theorem compareSubscriptionPlan_eq
    (hstrategy : s.routingStrategy = .subscriptionPlan) (hkind : left.kind = right.kind) :
    s.compareSubscriptionPlan left right =
      compare (s.subscriptionValue left) (s.subscriptionValue right) := by
  unfold compareSubscriptionPlan subscriptionValue
  cases hr : right.kind with
  | apiSource => simp [hkind, hr]
  | oauthAccount =>
    rw [hr] at hkind
    simp [hkind, hstrategy, compare_neg_neg]

/-- The quota comparison decides whether there is a quota at all before it looks at amounts. -/
theorem compareQuotaAndReset_known (left right : RuntimeCandidate) :
    s.compareQuotaAndReset left right =
      (compare (s.quotaKnown left) (s.quotaKnown right)).then
        (s.compareQuotaAndReset left right) := by
  unfold compareQuotaAndReset quotaKnown
  cases s.routingQuota left <;> cases s.routingQuota right <;> rfl

theorem compareApiSourcePriority_eq (htier : routingTier left = routingTier right) (hkind : left.kind = right.kind) :
    compareApiSourcePriority left right = compare (apiPriority left) (apiPriority right) := by
  unfold compareApiSourcePriority apiPriority
  cases hr : right.kind with
  | apiSource =>
    rw [hr] at hkind
    simp [hkind, htier]
  | oauthAccount =>
    rw [hr] at hkind
    simp [hkind]

/-- The subscription part of the strategy in use; adaptive and quota routing have none. -/
def compareSubscription (left right : RuntimeCandidate) : Ordering :=
  match s.routingStrategy with
  | .subscriptionExpiry => s.compareSubscriptionExpiry left right
  | .subscriptionPlan => s.compareSubscriptionPlan left right
  | .adaptive | .quotaHighest => .eq

theorem compareSubscription_eq (hkind : left.kind = right.kind) :
    s.compareSubscription left right =
      (compare (s.subscriptionKnown left) (s.subscriptionKnown right)).then
        (compare (s.subscriptionValue left) (s.subscriptionValue right)) := by
  unfold compareSubscription
  cases hstrategy : s.routingStrategy with
  | subscriptionExpiry => exact s.compareSubscriptionExpiry_eq hstrategy hkind
  | subscriptionPlan =>
    rw [show s.subscriptionKnown left = 0 by simp [subscriptionKnown, hstrategy],
      show s.subscriptionKnown right = 0 by simp [subscriptionKnown, hstrategy]]
    exact s.compareSubscriptionPlan_eq hstrategy hkind
  | adaptive => simp [subscriptionKnown, subscriptionValue, hstrategy]
  | quotaHighest => simp [subscriptionKnown, subscriptionValue, hstrategy]

/-- The rotation part of the strategy in use. -/
def compareRotation (left right : RuntimeCandidate) : Ordering :=
  if s.routingStrategy = .quotaHighest then .eq else s.fairRotation left right lane

theorem tieBreak_eq (hkind : left.kind = right.kind) :
    s.tieBreak lane left right =
      (s.compareLoad left right lane).then
        ((s.compareRotation lane left right).then (compare right.id left.id)) := by
  unfold tieBreak compareLex compareOn compareIds loadKey rotationKey compareLoad compareRotation
    fairRotation compareEqualQuotaRotation
  cases hr : right.kind with
  | apiSource =>
    rw [hr] at hkind
    simp [hkind]
  | oauthAccount =>
    rw [hr] at hkind
    simp only [hkind]
    by_cases hq : s.routingStrategy = .quotaHighest
    · simp [hq, compare_neg_neg]
    · simp [hq, compare_neg_neg]

/-- The preference: standing, then quota, then tie break. -/
theorem comparePreference_eq (left right : RuntimeCandidate) :
    s.comparePreference left right lane =
      (s.standing left right).then
        ((s.compareQuotaAndReset left right).then (s.tieBreak lane left right)) := by
  have hshape : s.comparePreference left right lane =
      (compare (routingTier left) (routingTier right)).then
        ((compare (candidateKindPreference left) (candidateKindPreference right)).then
          ((compareApiSourcePriority left right).then ((s.compareSubscription left right).then
            ((s.compareQuotaAndReset left right).then ((s.compareLoad left right lane).then
              ((s.compareRotation lane left right).then (compare right.id left.id))))))) := by
    unfold comparePreference compareSubscription compareRotation
    cases s.routingStrategy <;> simp [Ordering.then_assoc]
  rw [hshape]
  unfold standing compareLex compareOn
  simp only [Ordering.then_assoc]
  refine then_congr fun htier => then_congr fun hpreference => ?_
  have hkind := kind_eq_of_preference hpreference
  rw [compareApiSourcePriority_eq (Std.compare_eq_iff_eq.mp htier) hkind,
    s.compareSubscription_eq hkind, s.tieBreak_eq lane hkind]
  conv_lhs => rw [s.compareQuotaAndReset_known left right]
  simp only [Ordering.then_assoc]

/-! ## Antisymmetry and distinctness -/

theorem absDiff_comm (a b : Nat) : absDiff a b = absDiff b a := by
  unfold absDiff
  omega

theorem compareQuotaAndReset_swap (left right : RuntimeCandidate) :
    s.compareQuotaAndReset left right = (s.compareQuotaAndReset right left).swap := by
  unfold compareQuotaAndReset
  cases s.routingQuota left with
  | available leftQuota =>
    cases s.routingQuota right with
    | available rightQuota =>
      have hquota : compare leftQuota rightQuota = (compare rightQuota leftQuota).swap :=
        OrientedCmp.eq_swap
      simp only [absDiff_comm rightQuota leftQuota]
      split
      · rfl
      · split
        · cases left.quotaResetAtMs with
          | none => cases right.quotaResetAtMs <;> exact hquota
          | some leftReset =>
            cases right.quotaResetAtMs with
            | none => exact hquota
            | some rightReset =>
              simp only
              rw [Ordering.swap_then, ← hquota]
              exact congrArg (Ordering.then · _) OrientedCmp.eq_swap
        · exact hquota
    | unknown => rfl
    | exhausted => rfl
    | stale => rfl
  | unknown => cases s.routingQuota right <;> rfl
  | exhausted => cases s.routingQuota right <;> rfl
  | stale => cases s.routingQuota right <;> rfl

theorem comparePreference_swap (left right : RuntimeCandidate) :
    s.comparePreference left right lane = (s.comparePreference right left lane).swap := by
  have hstanding : s.standing left right = (s.standing right left).swap := OrientedCmp.eq_swap
  have htie : s.tieBreak lane left right = (s.tieBreak lane right left).swap :=
    OrientedCmp.eq_swap
  rw [comparePreference_eq, comparePreference_eq, Ordering.swap_then, Ordering.swap_then,
    ← hstanding, ← htie, ← compareQuotaAndReset_swap]

theorem comparePreference_ne_eq (h : left.id ≠ right.id) :
    s.comparePreference left right lane ≠ .eq := by
  intro heq
  rw [comparePreference_eq, Ordering.then_eq_eq, Ordering.then_eq_eq] at heq
  have htie := heq.2.2
  simp only [tieBreak, compareLex, Ordering.then_eq_eq, compareIds] at htie
  exact h (Std.compare_eq_iff_eq.mp htie.2.2).symm

theorem comparePreference_total (h : left.id ≠ right.id)
    (hgt : s.comparePreference left right lane ≠ .gt) :
    s.comparePreference right left lane = .gt :=
  @gt_of_not_gt _ (fun x y => s.comparePreference x y lane) left right
    (s.comparePreference_swap lane right left) (s.comparePreference_ne_eq lane h) hgt

/-! ## Overtaking -/

/-- Of two candidates of one standing, `x` with not more quota than `y` is preferred to `y`: their
quotas differ by noise only and the tie break prefers `x`, or they differ by little and `x` is
known to reset first. -/
def overtakes (x y : RuntimeCandidate) : Bool :=
  match s.routingQuota x, s.routingQuota y with
  | .available less, .available more =>
    if more - less ≤ quotaNoiseTieBps then decide (s.tieBreak lane x y = .gt)
    else
      decide (more - less ≤ quotaResetTieBps) &&
        match x.quotaResetAtMs, y.quotaResetAtMs with
        | some xReset, some yReset => decide (xReset < yReset)
        | _, _ => false
  | _, _ => false

variable {s}

variable {x y : RuntimeCandidate}

/-- Among candidates of one standing, in the order of their quotas, preference is overtaking. -/
theorem comparePreference_eq_gt_iff {less more : Nat}
    (hstanding : s.standing x y = .eq) (hx : s.routingQuota x = .available less)
    (hy : s.routingQuota y = .available more) (hle : less ≤ more) :
    s.comparePreference x y lane = .gt ↔ s.overtakes lane x y = true := by
  have hgap : absDiff less more = more - less := by
    unfold absDiff
    omega
  have hless : ¬ Ordering.lt.then (s.tieBreak lane x y) = .gt := fun h => by cases h
  rw [comparePreference_eq, hstanding]
  simp only [overtakes, compareQuotaAndReset, hx, hy, hgap]
  rcases Nat.lt_or_ge quotaNoiseTieBps (more - less) with hnoise | hnoise
  · have hlt : compare less more = .lt := by
      unfold quotaNoiseTieBps at hnoise
      exact compare_lt_iff_lt.mpr (by omega)
    simp only [if_neg (Nat.not_le.mpr hnoise), hlt]
    rcases Nat.lt_or_ge quotaResetTieBps (more - less) with hlarge | hsmall
    · rw [if_neg (Nat.not_le.mpr hlarge), decide_eq_false (Nat.not_le.mpr hlarge)]
      exact iff_of_false hless Bool.false_ne_true
    · rw [if_pos hsmall, decide_eq_true hsmall]
      cases x.quotaResetAtMs with
      | none => cases y.quotaResetAtMs <;> exact iff_of_false hless Bool.false_ne_true
      | some xReset =>
        cases y.quotaResetAtMs with
        | none => exact iff_of_false hless Bool.false_ne_true
        | some yReset =>
          simp only [Bool.true_and, decide_eq_true_eq]
          rcases Nat.lt_trichotomy xReset yReset with h | rfl | h
          · rw [compare_gt_iff_gt.mpr (show yReset > xReset from h)]
            exact iff_of_true rfl h
          · rw [Std.compare_self]
            exact iff_of_false hless (Nat.lt_irrefl _)
          · rw [compare_lt_iff_lt.mpr (show yReset < xReset from h)]
            exact iff_of_false hless (Nat.not_lt.mpr (Nat.le_of_lt h))
  · simp only [if_pos hnoise, decide_eq_true_eq]
    rfl

variable {lane}

/-! ## When the preference is a strict order -/

/-- In any three candidates of one standing with quotas `less ≤ middle ≤ more`, if the outer
neighbours of the middle one agree on overtaking, the outer pair does too. -/
def OvertakesConsistently (s : PoolScheduler) (lane : InFlightLane) (l : List RuntimeCandidate) :
    Prop :=
  ∀ x ∈ l, ∀ y ∈ l, ∀ z ∈ l, ∀ less middle more,
    s.standing x y = .eq → s.standing y z = .eq →
    s.routingQuota x = .available less → s.routingQuota y = .available middle →
    s.routingQuota z = .available more → less ≤ middle → middle ≤ more →
    s.overtakes lane x y = s.overtakes lane y z → s.overtakes lane x z = s.overtakes lane x y

/-- A candidate with a quota has the standing of one with a quota only. -/
theorem routingQuota_of_standing {quota : Nat}
    (hstanding : s.standing x y = .eq) (hx : s.routingQuota x = .available quota) :
    ∃ quota', s.routingQuota y = .available quota' := by
  simp only [standing, compareLex, compareOn, Ordering.then_eq_eq] at hstanding
  have hknown := Std.compare_eq_iff_eq.mp hstanding.2.2.2.2.2
  unfold quotaKnown at hknown
  rw [hx] at hknown
  cases hy : s.routingQuota y with
  | available quota' => exact ⟨quota', rfl⟩
  | unknown => simp [hy] at hknown
  | exhausted => simp [hy] at hknown
  | stale => simp [hy] at hknown

theorem standing_symm (h : s.standing x y = .eq) :
    s.standing y x = .eq := by
  have hswap : s.standing y x = (s.standing x y).swap := OrientedCmp.eq_swap
  rw [hswap, h]
  rfl

/-- Candidates of one standing without a quota are ordered by the tie break. -/
theorem comparePreference_of_no_quota
    (hstanding : s.standing x y = .eq) (hx : ∀ quota, s.routingQuota x ≠ .available quota) :
    s.comparePreference x y lane = s.tieBreak lane x y := by
  have hy : ∀ quota, s.routingQuota y ≠ .available quota := by
    intro quota hquota
    obtain ⟨quota', hquota'⟩ := routingQuota_of_standing (standing_symm hstanding) hquota
    exact hx quota' hquota'
  have htie : s.compareQuotaAndReset x y = .eq := by
    unfold compareQuotaAndReset
    cases hxq : s.routingQuota x with
    | available quota => exact absurd hxq (hx quota)
    | unknown => cases hyq : s.routingQuota y <;> first | rfl | exact absurd hyq (hy _)
    | exhausted => cases hyq : s.routingQuota y <;> first | rfl | exact absurd hyq (hy _)
    | stale => cases hyq : s.routingQuota y <;> first | rfl | exact absurd hyq (hy _)
  rw [comparePreference_eq, hstanding, htie]
  rfl

/-- Candidates without a quota form no cycle. -/
theorem no_quota_cycle {a b c : RuntimeCandidate} (hab : s.standing a b = .eq)
    (hbc : s.standing b c = .eq) (hca : s.standing c a = .eq)
    (ha : ∀ quota, s.routingQuota a ≠ .available quota) :
    ¬ Cycle (fun x y => s.comparePreference x y lane) a b c := by
  intro hcycle
  have hb : ∀ quota, s.routingQuota b ≠ .available quota := by
    intro quota hquota
    obtain ⟨quota', hquota'⟩ := routingQuota_of_standing (standing_symm hab) hquota
    exact ha quota' hquota'
  have hc : ∀ quota, s.routingQuota c ≠ .available quota := by
    intro quota hquota
    obtain ⟨quota', hquota'⟩ := routingQuota_of_standing (standing_symm hbc) hquota
    exact hb quota' hquota'
  have htie : Cycle (s.tieBreak lane) a b c :=
    ⟨(comparePreference_of_no_quota hab ha).symm.trans hcycle.first,
      (comparePreference_of_no_quota hbc hb).symm.trans hcycle.second,
      (comparePreference_of_no_quota hca hc).symm.trans hcycle.third⟩
  exact not_cycle_of_transCmp htie

/-- In the order of the quotas, no cycle runs in either direction. -/
theorem not_cycle_of_sorted {x y z : RuntimeCandidate} {less middle more : Nat}
    (hxy : s.standing x y = .eq) (hyz : s.standing y z = .eq)
    (hx : s.routingQuota x = .available less) (hy : s.routingQuota y = .available middle)
    (hz : s.routingQuota z = .available more) (hle : less ≤ middle) (hle' : middle ≤ more)
    (hov : s.overtakes lane x y = s.overtakes lane y z →
      s.overtakes lane x z = s.overtakes lane x y) :
    ¬ Cycle (fun a b => s.comparePreference a b lane) x y z ∧
      ¬ Cycle (fun a b => s.comparePreference a b lane) z y x := by
  have hxz : s.standing x z = .eq := TransCmp.eq_trans hxy hyz
  have hgt_xy := comparePreference_eq_gt_iff lane hxy hx hy hle
  have hgt_yz := comparePreference_eq_gt_iff lane hyz hy hz hle'
  have hgt_xz := comparePreference_eq_gt_iff lane hxz hx hz (Nat.le_trans hle hle')
  -- Of two candidates, the reverse comparison excludes overtaking.
  have hback : ∀ {a b : RuntimeCandidate}, s.comparePreference b a lane = .gt →
      s.comparePreference a b lane ≠ .gt := by
    intro a b hba hab
    rw [comparePreference_swap, hba] at hab
    cases hab
  constructor
  · rintro ⟨hab, hbc, hca⟩
    have h1 := hgt_xy.mp hab
    have h2 := hgt_yz.mp hbc
    have h3 : s.overtakes lane x z = true := (hov (h1.trans h2.symm)).trans h1
    exact hback hca (hgt_xz.mpr h3)
  · rintro ⟨hzy, hyx, hxz'⟩
    have h1 : s.overtakes lane x y = false :=
      Bool.eq_false_iff.mpr fun h => hback hyx (hgt_xy.mpr h)
    have h2 : s.overtakes lane y z = false :=
      Bool.eq_false_iff.mpr fun h => hback hzy (hgt_yz.mpr h)
    have h3 := hov (h1.trans h2.symm)
    rw [h1, hgt_xz.mp hxz'] at h3
    cases h3

/-- Consistent overtaking leaves no cycle: a cycle stays in one standing, where candidates without a
quota are ordered by the tie break and the others can be sorted by quota. -/
theorem OvertakesConsistently.not_cycle {l : List RuntimeCandidate}
    (h : OvertakesConsistently s lane l) {a b c : RuntimeCandidate} (ha : a ∈ l) (hb : b ∈ l)
    (hc : c ∈ l) : ¬ Cycle (fun x y => s.comparePreference x y lane) a b c := by
  intro hcycle
  have hparts : (fun x y => s.comparePreference x y lane) = fun x y => (s.standing x y).then
      ((s.compareQuotaAndReset x y).then (s.tieBreak lane x y)) := by
    funext x y
    exact s.comparePreference_eq lane x y
  have hcycle' := hcycle
  rw [hparts] at hcycle'
  obtain ⟨hab, hbc, hca⟩ := hcycle'.outer_eq
  cases hqa : s.routingQuota a with
  | available qa =>
    obtain ⟨qb, hqb⟩ := routingQuota_of_standing hab hqa
    obtain ⟨qc, hqc⟩ := routingQuota_of_standing hbc hqb
    have hba := standing_symm hab
    have hcb := standing_symm hbc
    have hac := standing_symm hca
    -- The six orders of the three quotas.
    rcases Nat.le_total qa qb with h1 | h1 <;> rcases Nat.le_total qb qc with h2 | h2
    · exact (not_cycle_of_sorted hab hbc hqa hqb hqc h1 h2
        (h a ha b hb c hc qa qb qc hab hbc hqa hqb hqc h1 h2)).1 hcycle
    · rcases Nat.le_total qa qc with h3 | h3
      · exact (not_cycle_of_sorted hac hcb hqa hqc hqb h3 h2
          (h a ha c hc b hb qa qc qb hac hcb hqa hqc hqb h3 h2)).2 hcycle.rotate
      · exact (not_cycle_of_sorted hca hab hqc hqa hqb h3 h1
          (h c hc a ha b hb qc qa qb hca hab hqc hqa hqb h3 h1)).1 hcycle.rotate.rotate
    · rcases Nat.le_total qa qc with h3 | h3
      · exact (not_cycle_of_sorted hba hac hqb hqa hqc h1 h3
          (h b hb a ha c hc qb qa qc hba hac hqb hqa hqc h1 h3)).2 hcycle.rotate.rotate
      · exact (not_cycle_of_sorted hbc hca hqb hqc hqa h2 h3
          (h b hb c hc a ha qb qc qa hbc hca hqb hqc hqa h2 h3)).1 hcycle.rotate
    · exact (not_cycle_of_sorted hcb hba hqc hqb hqa h2 h1
        (h c hc b hb a ha qc qb qa hcb hba hqc hqb hqa h2 h1)).2 hcycle
  | unknown => exact no_quota_cycle hab hbc hca (fun q hq => by rw [hqa] at hq; cases hq) hcycle
  | exhausted => exact no_quota_cycle hab hbc hca (fun q hq => by rw [hqa] at hq; cases hq) hcycle
  | stale => exact no_quota_cycle hab hbc hca (fun q hq => by rw [hqa] at hq; cases hq) hcycle

theorem OvertakesConsistently.strictOrderOn {l : List RuntimeCandidate}
    (h : OvertakesConsistently s lane l) (hnd : (l.map RuntimeCandidate.id).Nodup) :
    StrictOrderOn (fun x y => s.comparePreference x y lane) RuntimeCandidate.id l :=
  StrictOrderOn.of_no_cycle hnd (fun a _ b _ => s.comparePreference_swap lane a b)
    (fun _ _ _ _ hne => s.comparePreference_ne_eq lane hne)
    fun _ ha _ hb _ hc => h.not_cycle ha hb hc

/-- On a set with pairwise distinct ids the preference is a strict total order if and only if
overtaking is consistent along the quotas of every three candidates of one standing. -/
theorem preference_strictOrderOn_iff (s : PoolScheduler) (lane : InFlightLane)
    (l : List RuntimeCandidate) (hnd : (l.map RuntimeCandidate.id).Nodup) :
    StrictOrderOn (fun x y => s.comparePreference x y lane) RuntimeCandidate.id l ↔
      OvertakesConsistently s lane l := by
  refine ⟨fun h => ?_, fun h => h.strictOrderOn hnd⟩
  intro x hx y hy z hz less middle more hxy hyz hqx hqy hqz hle hle' hsame
  have hxz : s.standing x z = .eq := TransCmp.eq_trans hxy hyz
  have hgt_xy := comparePreference_eq_gt_iff lane hxy hqx hqy hle
  have hgt_yz := comparePreference_eq_gt_iff lane hyz hqy hqz hle'
  have hgt_xz := comparePreference_eq_gt_iff lane hxz hqx hqz (Nat.le_trans hle hle')
  cases hov : s.overtakes lane x y with
  | true =>
    exact hgt_xz.mp (h.trans x hx y hy z hz (hgt_xy.mpr hov) (hgt_yz.mpr (hsame ▸ hov)))
  | false =>
    by_contra hxz'
    rw [Bool.not_eq_false] at hxz'
    have hov' : s.overtakes lane y z = false := hsame ▸ hov
    -- The middle candidate is another one: it is overtaken where an outer one is not.
    have hne : x.id ≠ y.id := by
      intro hid
      rw [List.inj_on_of_nodup_map hnd hx hy hid, hov'] at hxz'
      cases hxz'
    have hne' : y.id ≠ z.id := by
      intro hid
      rw [← List.inj_on_of_nodup_map hnd hy hz hid, hov] at hxz'
      cases hxz'
    have hyx := s.comparePreference_total lane hne fun hgt => by
      rw [hgt_xy.mp hgt] at hov
      cases hov
    have hzy := s.comparePreference_total lane hne' fun hgt => by
      rw [hgt_yz.mp hgt] at hov'
      cases hov'
    have hzx := h.trans z hz y hy x hx hzy hyx
    have hgt := hgt_xz.mpr hxz'
    rw [comparePreference_swap, hzx] at hgt
    cases hgt

/-! ## A cycle -/

/-- An account with the given quota and no known reset. -/
def quotaAccount (id : String) (quota : Nat) : RuntimeCandidate :=
  { id := id, kind := .oauthAccount, sourceId := id, models := {"m"}, quota := .available quota }

def quotaPool : PoolScheduler :=
  ((PoolScheduler.new.upsert (quotaAccount "a" 5000)).upsert (quotaAccount "b" 5001)).upsert
    (quotaAccount "c" 5002)

/-- Quotas 5000, 5001 and 5002: the first two and the last two tie and go to the smaller id, the
outer two do not tie. The preference maximum is `c`, which `b` beats. -/
theorem preference_cycle :
    ¬ StrictOrderOn (fun x y => quotaPool.comparePreference x y .text) RuntimeCandidate.id
        [quotaAccount "a" 5000, quotaAccount "b" 5001, quotaAccount "c" 5002] ∧
      (quotaPool.baseline? { model := "m", allowedProtocols := [.responses], nowMs := 0 }
        .text).map (·.id) = some "c" ∧
      quotaPool.comparePreference (quotaAccount "b" 5001) (quotaAccount "c" 5002) .text = .gt := by
  refine ⟨fun h => ?_, by decide +kernel, by decide +kernel⟩
  have hac := h.trans (quotaAccount "a" 5000) (by simp) (quotaAccount "b" 5001) (by simp)
    (quotaAccount "c" 5002) (by simp) (by decide +kernel) (by decide +kernel)
  exact absurd hac (by decide +kernel)

/-- Two accounts cannot form a cycle. -/
theorem preference_strictOrderOn_pair :
    StrictOrderOn (fun x y => quotaPool.comparePreference x y .text) RuntimeCandidate.id
      [quotaAccount "a" 5000, quotaAccount "c" 5002] := by
  refine (preference_strictOrderOn_iff quotaPool .text _ (by decide)).mpr ?_
  intro x hx y hy z hz _ _ _ _ _ _ _ _ _ _
  simp only [List.mem_cons, List.not_mem_nil, or_false] at hx hy hz
  rcases hx with rfl | rfl <;> rcases hy with rfl | rfl <;> rcases hz with rfl | rfl <;>
    decide +kernel

end PoolScheduler

end Zenith.Scheduler
