import Zenith.Lib.Runs
import Zenith.Scheduler.Selection

/-!
# The provider storm breaker

Three rate limits of one source and model within ten seconds block the pair for thirty seconds; a success forgets them.
The breaker keeps a pruned list of times and one deadline. `storm_breaker_spec` says what both are in terms of all rate
limits since the last success.
-/

namespace Zenith.Scheduler

open Zenith.Runs Zenith.Tables Zenith.Text

/-- What is reported of a provider. -/
inductive StormOp
  | rateLimit (candidateId model : String) (nowMs : Nat)
  | success (candidateId model : String) (nowMs : Nat)
deriving DecidableEq, Repr

namespace StormOp

def nowMs : StormOp → Nat
  | .rateLimit _ _ nowMs => nowMs
  | .success _ _ nowMs => nowMs

def step (s : PoolScheduler) : StormOp → PoolScheduler
  | .rateLimit candidateId model nowMs => (s.recordProviderRateLimit candidateId model nowMs).1
  | .success candidateId model nowMs => (s.recordSuccess candidateId model nowMs).1

/-- The time of a rate limit of the pair. -/
def limitOf (s : PoolScheduler) (pair : String × String) : StormOp → Option Nat
  | .rateLimit candidateId model nowMs =>
    if (s.candidates.get? candidateId).any fun candidate =>
        candidate.kind = .apiSource && (candidate.sourceId, asciiLower model) = pair then some nowMs
    else none
  | .success _ _ _ => none

/-- A success of the pair. -/
def succeeds (s : PoolScheduler) (pair : String × String) : StormOp → Bool
  | .rateLimit _ _ _ => false
  | .success candidateId model _ => (s.candidates.get? candidateId).any fun candidate => (candidate.sourceId, asciiLower model) = pair

end StormOp

/-- The times of the rate limits of a pair since its last success. -/
def limitsSince (s : PoolScheduler) (pair : String × String) (ops : List StormOp) : List Nat :=
  (ops.rtakeWhile fun op => !op.succeeds s pair).filterMap (·.limitOf s pair)

/-- The rate limits in the window that ends at a time. -/
def inWindow (limits : List Nat) (atMs : Nat) : List Nat :=
  limits.filter fun limit => atMs - providerStormWindowMs ≤ limit ∧ limit ≤ atMs

section
variable {s : PoolScheduler} {pair : String × String} {ops : List StormOp} {op : StormOp} {limits : List Nat} {nowMs atMs : Nat}

theorem limitsSince_concat (ops : List StormOp) (op : StormOp) : limitsSince s pair (ops ++ [op]) =
    if op.succeeds s pair then [] else limitsSince s pair ops ++ (op.limitOf s pair).toList := by
  unfold limitsSince
  cases h : op.succeeds s pair with
  | true =>
    rw [List.rtakeWhile_concat_neg _ _ _ (by rw [h]; exact Bool.false_ne_true)]
    rfl
  | false =>
    rw [List.rtakeWhile_concat_pos _ _ _ (by rw [h]; rfl), List.filterMap_append]
    cases hlimit : op.limitOf s pair <;> simp [hlimit]

theorem StormOp.limitOf_eq_some (h : op.limitOf s pair = some nowMs) : nowMs = op.nowMs := by
  cases op with
  | rateLimit candidateId model atMs => exact (Option.some.inj (Option.ite_none_right_eq_some.mp h).2).symm
  | success => exact nomatch h

theorem limit_le (hle : ∀ op ∈ ops, op.nowMs ≤ nowMs) {limit : Nat} (h : limit ∈ limitsSince s pair ops) : limit ≤ nowMs := by
  obtain ⟨op, hmem, hlimit⟩ := List.mem_filterMap.mp h
  have hop : op ∈ ops := (List.rtakeWhile_suffix _ _).mem hmem
  exact StormOp.limitOf_eq_some hlimit ▸ hle op hop

theorem dropWhile_eq_filter {p : Nat → Bool} (h : limits.Pairwise fun a b => p b = true → p a = true) :
    limits.dropWhile p = limits.filter fun limit => !p limit := by
  induction limits with
  | nil => rfl
  | cons limit limits ih =>
    obtain ⟨hfirst, hrest⟩ := List.pairwise_cons.mp h
    cases hp : p limit with
    | true => rw [List.dropWhile_cons_of_pos hp, ih hrest, List.filter_cons_of_neg (by rw [hp]; exact Bool.false_ne_true)]
    | false =>
      rw [List.dropWhile_cons_of_neg (by rw [hp]; exact Bool.false_ne_true), List.filter_eq_self.mpr]
      refine List.forall_mem_cons.mpr ⟨by rw [hp]; rfl, fun other hmem => ?_⟩
      cases hother : p other with
      | true => exact absurd (hfirst other hmem hother) (by rw [hp]; exact Bool.false_ne_true)
      | false => rfl

theorem inWindow_concat (limits : List Nat) (nowMs : Nat) : inWindow (limits ++ [nowMs]) nowMs = inWindow limits nowMs ++ [nowMs] := by
  unfold inWindow
  rw [List.filter_append, List.filter_cons_of_pos (by simp)]
  rfl

theorem inWindow_concat_of_lt (h : atMs < nowMs) : inWindow (limits ++ [nowMs]) atMs = inWindow limits atMs := by
  unfold inWindow
  rw [List.filter_append, List.filter_cons_of_neg, List.filter_nil, List.append_nil]
  simp only [decide_eq_true_eq]
  omega

/-- What a rate limit leaves of the window before it. -/
theorem dropWhile_inWindow (hsorted : limits.Pairwise (· ≤ ·)) (hle : ∀ limit ∈ limits, limit ≤ atMs) (hat : atMs ≤ nowMs) :
    (inWindow limits atMs).dropWhile (fun observed => decide (providerStormWindowMs < nowMs - observed)) = inWindow limits nowMs := by
  unfold inWindow
  rw [dropWhile_eq_filter, List.filter_filter]
  · refine List.filter_congr fun limit hmem => ?_
    have hlimit := hle limit hmem
    rw [Bool.eq_iff_iff]
    simp only [Bool.and_eq_true, Bool.not_eq_true', decide_eq_true_eq, decide_eq_false_iff_not]
    omega
  · refine (hsorted.filter _).imp fun hab hb => ?_
    simp only [decide_eq_true_eq] at hb ⊢
    omega

/-! ## The breaker of a run -/

/-- A rate limit that ends a window of three blocks its pair until then. -/
def Blocks (limits : List Nat) (nowMs : Nat) : Prop :=
  ∃ limit ∈ limits, providerStormThreshold ≤ (inWindow limits limit).length ∧ nowMs < satAdd 64 limit providerStormOpenMs

/-- What the breaker keeps of the rate limits. -/
structure Summarizes (breaker : StormBreaker) (limits : List Nat) : Prop where
  failures : breaker.failures = inWindow limits (limits.getLastD 0)
  opens : ∀ nowMs, nowMs < breaker.openUntilMs ↔ Blocks limits nowMs

theorem summarizes_nil : Summarizes {} [] where
  failures := rfl
  opens _ := iff_of_false (Nat.not_lt_zero _) fun ⟨_, hmem, _⟩ => nomatch hmem

theorem blocks_concat (hle : ∀ limit ∈ limits, limit ≤ nowMs) (atMs : Nat) : Blocks (limits ++ [nowMs]) atMs ↔
    if providerStormThreshold ≤ (inWindow limits nowMs ++ [nowMs]).length then atMs < satAdd 64 nowMs providerStormOpenMs
    else Blocks limits atMs := by
  have hlast : inWindow (limits ++ [nowMs]) nowMs = inWindow limits nowMs ++ [nowMs] := inWindow_concat limits nowMs
  have hmono {limit : Nat} (h : limit ≤ nowMs) : satAdd 64 limit providerStormOpenMs ≤ satAdd 64 nowMs providerStormOpenMs := by
    unfold satAdd
    omega
  unfold Blocks
  split
  case isTrue hthree =>
    constructor
    · rintro ⟨limit, hmem, -, hlt⟩
      refine Nat.lt_of_lt_of_le hlt (hmono ?_)
      rcases List.mem_append.mp hmem with hmem | hmem
      · exact hle limit hmem
      · exact Nat.le_of_eq (List.mem_singleton.mp hmem)
    · intro hlt
      exact ⟨nowMs, List.mem_append_right _ List.mem_cons_self, hlast ▸ hthree, hlt⟩
  case isFalse hfew =>
    -- A rate limit at the same time is in no window of three either.
    have hsame {limit : Nat} (h : limit ∈ limits) (hthree : providerStormThreshold ≤ (inWindow limits limit).length) : limit < nowMs := by
      refine Nat.lt_of_le_of_ne (hle limit h) ?_
      rintro rfl
      refine hfew (Nat.le_trans hthree ?_)
      rw [List.length_append]
      exact Nat.le_add_right _ _
    constructor
    · rintro ⟨limit, hmem, hthree, hlt⟩
      rcases List.mem_append.mp hmem with hmem | hmem
      · rcases Nat.lt_or_eq_of_le (hle limit hmem) with hbefore | rfl
        · exact ⟨limit, hmem, inWindow_concat_of_lt hbefore ▸ hthree, hlt⟩
        · exact absurd (hlast ▸ hthree) hfew
      · obtain rfl := List.mem_singleton.mp hmem
        exact absurd (hlast ▸ hthree) hfew
    · rintro ⟨limit, hmem, hthree, hlt⟩
      exact ⟨limit, List.mem_append_left _ hmem, (inWindow_concat_of_lt (hsame hmem hthree)).symm ▸ hthree, hlt⟩

/-- A breaker with one more rate limit. -/
def recorded (breaker : StormBreaker) (nowMs : Nat) : StormBreaker :=
  let failures := (breaker.failures.dropWhile fun observed => decide (providerStormWindowMs < nowMs - observed)) ++ [nowMs]
  ⟨failures, if providerStormThreshold ≤ failures.length then satAdd 64 nowMs providerStormOpenMs else breaker.openUntilMs⟩

theorem summarizes_recorded {breaker : StormBreaker} (h : Summarizes breaker limits) (hsorted : limits.Pairwise (· ≤ ·))
    (hle : ∀ limit ∈ limits, limit ≤ nowMs) : Summarizes (recorded breaker nowMs) (limits ++ [nowMs]) := by
  have hkept : breaker.failures.dropWhile (fun observed => decide (providerStormWindowMs < nowMs - observed)) = inWindow limits nowMs := by
    rw [h.failures]
    rcases List.eq_nil_or_concat limits with rfl | ⟨before, last, rfl⟩
    · rfl
    · rw [List.concat_eq_append, List.getLastD_concat]
      rw [List.concat_eq_append] at hsorted hle
      refine dropWhile_inWindow hsorted (fun limit hmem => ?_) (hle last (List.mem_append_right _ List.mem_cons_self))
      rcases List.mem_append.mp hmem with hmem | hmem
      · exact (List.pairwise_append.mp hsorted).2.2 limit hmem last List.mem_cons_self
      · exact Nat.le_of_eq (List.mem_singleton.mp hmem)
  unfold recorded
  rw [hkept]
  refine ⟨?_, fun atMs => ?_⟩
  · rw [List.getLastD_concat, inWindow_concat]
  · rw [blocks_concat hle]
    dsimp only
    split
    · exact Iff.rfl
    · exact h.opens atMs

/-! ## Runs -/

/-- What a breaker knows of a candidate. -/
def providerOf (candidate : RuntimeCandidate) : CandidateKind × String := (candidate.kind, candidate.sourceId)

/-- The breaker is on, and the candidates have the providers that they had. -/
structure SameProviders (s t : PoolScheduler) : Prop where
  enabled : t.providerStormBreakerEnabled = true
  providers : ∀ id, (t.candidates.get? id).map providerOf = (s.candidates.get? id).map providerOf

variable {t : PoolScheduler}

theorem SameProviders.any_eq (h : SameProviders s t) (id : String) (p : CandidateKind × String → Bool) :
    (t.candidates.get? id).any (fun candidate => p (providerOf candidate)) =
      (s.candidates.get? id).any fun candidate => p (providerOf candidate) := by
  have hmap (o : Option RuntimeCandidate) : o.any (fun candidate => p (providerOf candidate)) = (o.map providerOf).any p := by
    cases o <;> rfl
  rw [hmap, hmap, h.providers]

section
attribute [local instance] PoolScheduler.transCmp_scope

def breakerOf (s : PoolScheduler) (pair : String × String) : StormBreaker := s.providerStormBreakers[pair]?.getD {}

end

theorem SameProviders.limitOf (h : SameProviders s t) (op : StormOp) : op.limitOf t pair = op.limitOf s pair := by
  cases op with
  | rateLimit candidateId model nowMs =>
    exact congrArg (fun found => if found = true then some nowMs else none)
      (h.any_eq candidateId fun provider => provider.1 = .apiSource && (provider.2, asciiLower model) = pair)
  | success => rfl

theorem SameProviders.succeeds (h : SameProviders s t) (op : StormOp) : op.succeeds t pair = op.succeeds s pair := by
  cases op with
  | rateLimit => rfl
  | success candidateId model nowMs => exact h.any_eq candidateId fun provider => (provider.2, asciiLower model) = pair

/-- A rate limit of an API source is filed under its provider; any other is ignored. -/
theorem recordProviderRateLimit_cases (henabled : t.providerStormBreakerEnabled = true) (candidateId model : String) (nowMs : Nat) :
    ((t.candidates.get? candidateId).any (·.kind = .apiSource) = false ∧ (t.recordProviderRateLimit candidateId model nowMs).1 = t) ∨
      ∃ candidate, t.candidates.get? candidateId = some candidate ∧ candidate.kind = .apiSource ∧
        (t.recordProviderRateLimit candidateId model nowMs).1 = { t with
          providerStormBreakers := t.providerStormBreakers.insert (candidate.sourceId, asciiLower model)
            (recorded (breakerOf t (candidate.sourceId, asciiLower model)) nowMs) } := by
  unfold PoolScheduler.recordProviderRateLimit
  rw [henabled, if_neg (by decide)]
  cases hget : t.candidates.get? candidateId with
  | none => exact .inl ⟨rfl, rfl⟩
  | some candidate =>
    by_cases hkind : candidate.kind = .apiSource
    · rw [Option.filter_some_pos (by exact decide_eq_true hkind)]
      exact .inr ⟨candidate, rfl, hkind, rfl⟩
    · rw [Option.filter_some_neg (by exact decide_eq_false hkind)]
      exact .inl ⟨decide_eq_false hkind, rfl⟩

theorem SameProviders.step (h : SameProviders s t) (op : StormOp) : SameProviders s (op.step t) := by
  cases op with
  | rateLimit candidateId model nowMs =>
    show SameProviders s (t.recordProviderRateLimit candidateId model nowMs).1
    rcases recordProviderRateLimit_cases h.enabled candidateId model nowMs with ⟨-, heq⟩ | ⟨candidate, -, -, heq⟩
    · rw [heq]
      exact h
    · rw [heq]
      exact ⟨h.enabled, h.providers⟩
  | success candidateId model nowMs =>
    show SameProviders s (t.recordSuccess candidateId model nowMs).1
    rcases t.recordSuccess_cases candidateId model nowMs with heq | ⟨candidate, -, heq⟩
    · rw [heq]
      exact h
    · rw [heq]
      refine ⟨h.enabled, fun other => Eq.trans ?_ (h.providers other)⟩
      exact @CandidateTable.map_get?_modify _ t.candidates candidateId other _ (PoolScheduler.recoverCandidate_id model nowMs)
        providerOf fun _ => rfl

theorem breakerOf_insert (breakers : PairTable String String StormBreaker) (key pair : String × String) (breaker : StormBreaker) :
    breakerOf { t with providerStormBreakers := breakers.insert key breaker } pair =
      if key = pair then breaker else breakerOf { t with providerStormBreakers := breakers } pair := by
  simp only [breakerOf, Std.ExtTreeMap.getElem?_insert, Std.LawfulEqCmp.compare_eq_iff_eq]
  split <;> rfl

theorem breakerOf_erase (breakers : PairTable String String StormBreaker) (key pair : String × String) :
    breakerOf { t with providerStormBreakers := breakers.erase key } pair =
      if key = pair then {} else breakerOf { t with providerStormBreakers := breakers } pair := by
  simp only [breakerOf, Std.ExtTreeMap.getElem?_erase, Std.LawfulEqCmp.compare_eq_iff_eq]
  split <;> rfl

/-- A success forgets the breaker of its pair. -/
theorem breakerOf_success (candidateId model : String) (nowMs : Nat) (pair : String × String) :
    breakerOf (t.recordSuccess candidateId model nowMs).1 pair =
      if (StormOp.success candidateId model nowMs).succeeds t pair then {} else breakerOf t pair := by
  unfold PoolScheduler.recordSuccess StormOp.succeeds
  dsimp only
  obtain hget | ⟨candidate, hget⟩ := Option.eq_none_or_eq_some (t.candidates.get? candidateId)
  · simp only [hget, Option.any_none, Bool.false_eq_true, if_false]
  · simp only [hget, Option.any_some, decide_eq_true_eq]
    exact breakerOf_erase t.providerStormBreakers (candidate.sourceId, asciiLower model) pair

/-- What a step makes of the breaker of a pair. -/
theorem summarizes_step (h : SameProviders s t) (hlimits : Summarizes (breakerOf t pair) (limitsSince s pair ops))
    (hsorted : (limitsSince s pair ops).Pairwise (· ≤ ·)) (hle : ∀ limit ∈ limitsSince s pair ops, limit ≤ op.nowMs) :
    Summarizes (breakerOf (op.step t) pair) (limitsSince s pair (ops ++ [op])) := by
  rw [limitsSince_concat, ← h.succeeds op, ← h.limitOf op]
  cases op with
  | rateLimit candidateId model nowMs =>
    show Summarizes (breakerOf (t.recordProviderRateLimit candidateId model nowMs).1 pair) _
    rw [if_neg (by exact Bool.false_ne_true)]
    unfold StormOp.limitOf
    dsimp only
    rcases recordProviderRateLimit_cases h.enabled candidateId model nowMs with ⟨hnone, heq⟩ | ⟨candidate, hget, hkind, heq⟩
    · rw [heq, if_neg, Option.toList_none, List.append_nil]
      · exact hlimits
      · intro hany
        obtain ⟨candidate, hget, hboth⟩ := (Option.any_eq_true _ _).mp hany
        rw [hget] at hnone
        exact absurd (Bool.and_eq_true_iff.mp hboth).1 (by exact ne_true_of_eq_false hnone)
    · rw [heq, hget, breakerOf_insert]
      by_cases hpair : (candidate.sourceId, asciiLower model) = pair
      · subst hpair
        rw [if_pos rfl, if_pos (by simp [hkind])]
        exact summarizes_recorded hlimits hsorted hle
      · rw [if_neg hpair, if_neg (by simp [hpair]), Option.toList_none, List.append_nil]
        exact hlimits
  | success candidateId model nowMs =>
    show Summarizes (breakerOf (t.recordSuccess candidateId model nowMs).1 pair) _
    rw [breakerOf_success]
    cases (StormOp.success candidateId model nowMs).succeeds t pair with
    | true => exact summarizes_nil
    | false =>
      rw [if_neg Bool.false_ne_true, if_neg Bool.false_ne_true, StormOp.limitOf, Option.toList_none, List.append_nil]
      exact hlimits

theorem summarizes_run (henabled : s.providerStormBreakerEnabled = true) (hfresh : s.providerStormBreakers[pair]? = none)
    (htimes : (ops.map StormOp.nowMs).Pairwise (· ≤ ·)) : SameProviders s (run StormOp.step s ops) ∧
      Summarizes (breakerOf (run StormOp.step s ops) pair) (limitsSince s pair ops) ∧ (limitsSince s pair ops).Pairwise (· ≤ ·) := by
  induction ops using List.reverseRecOn with
  | nil =>
    refine ⟨⟨henabled, fun _ => rfl⟩, ?_, List.Pairwise.nil⟩
    rw [breakerOf, run_nil, hfresh]
    exact summarizes_nil
  | append_singleton ops op ih =>
    rw [List.map_append, List.pairwise_append] at htimes
    obtain ⟨hsame, hlimits, hsorted⟩ := ih htimes.1
    have hops : ∀ other ∈ ops, other.nowMs ≤ op.nowMs := fun other hmem =>
      htimes.2.2 other.nowMs (List.mem_map_of_mem hmem) op.nowMs List.mem_cons_self
    have hle : ∀ limit ∈ limitsSince s pair ops, limit ≤ op.nowMs := fun limit hmem => limit_le hops hmem
    rw [run_append]
    refine ⟨hsame.step op, summarizes_step hsame hlimits hsorted hle, ?_⟩
    rw [limitsSince_concat]
    split
    · exact List.Pairwise.nil
    · refine List.pairwise_append.mpr ⟨hsorted, ?_, fun limit hmem last hlast => ?_⟩
      · cases op.limitOf s pair with
        | none => exact List.Pairwise.nil
        | some last => exact List.pairwise_singleton _ _
      · rw [StormOp.limitOf_eq_some (Option.mem_toList.mp hlast)]
        exact hle limit hmem

/-- The breaker blocks a pair by the rate limits since the last success of the pair, and keeps those of the last window. -/
theorem storm_breaker_spec (s : PoolScheduler) (henabled : s.providerStormBreakerEnabled = true) (ops : List StormOp)
    (htimes : (ops.map StormOp.nowMs).Pairwise (· ≤ ·)) (candidate : RuntimeCandidate) (model : String)
    (hfresh : s.providerStormBreakers[(candidate.sourceId, asciiLower model)]? = none) :
    let pair := (candidate.sourceId, asciiLower model)
    (∀ nowMs, (run StormOp.step s ops).providerStormOpen candidate model nowMs = true ↔ Blocks (limitsSince s pair ops) nowMs) ∧
      (breakerOf (run StormOp.step s ops) pair).failures =
        inWindow (limitsSince s pair ops) ((limitsSince s pair ops).getLastD 0) := by
  intro pair
  obtain ⟨hsame, hlimits, -⟩ := summarizes_run henabled hfresh htimes
  refine ⟨fun nowMs => ?_, hlimits.failures⟩
  rw [← hlimits.opens]
  have hopen : (run StormOp.step s ops).providerStormOpen candidate model nowMs =
      decide (nowMs < (breakerOf (run StormOp.step s ops) pair).openUntilMs) := by
    unfold PoolScheduler.providerStormOpen breakerOf
    rw [hsame.enabled, Bool.true_and]
    cases (run StormOp.step s ops).providerStormBreakers[pair]? with
    | none => exact (decide_eq_false (Nat.not_lt_zero nowMs)).symm
    | some breaker => rfl
  rw [hopen, decide_eq_true_eq]

end

def stormSource : RuntimeCandidate := { id := "a", kind := .apiSource, sourceId := "s" }

def stormPool : PoolScheduler := { candidates := CandidateTable.empty.insert stormSource, providerStormBreakerEnabled := true }

/-- The first rate limit is before a success. -/
def stormOps : List StormOp :=
  [.rateLimit "a" "m" 0, .success "a" "M" 1000, .rateLimit "a" "m" 2000, .rateLimit "a" "m" 5000, .rateLimit "a" "m" 12000]

theorem storm_breaker_spec_sample : (run StormOp.step stormPool stormOps).providerStormOpen stormSource "m" 41999 = true ∧
    (breakerOf (run StormOp.step stormPool stormOps) ("s", "m")).failures = [2000, 5000, 12000] := by
  have hlimits : limitsSince stormPool (stormSource.sourceId, asciiLower "m") stormOps = [2000, 5000, 12000] := by decide +kernel
  obtain ⟨hopen, hfailures⟩ := storm_breaker_spec stormPool rfl stormOps (by decide) stormSource "m" (by decide +kernel)
  rw [hlimits] at hopen hfailures
  exact ⟨(hopen 41999).mpr ⟨12000, by decide, by decide, by decide⟩, hfailures.trans (by decide)⟩

end Zenith.Scheduler
