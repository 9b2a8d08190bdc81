import Mathlib
import Zenith.Gateway.Execution

/-!
# The budget of the retry loop

What a round does to the counters of the loop is said once (`Settles` and `iterate_cases`). From it
follow the budget of a run (`Budget`: how many attempts it makes in all and on each candidate) and the
measure that every round lowers (`Run.remaining`). `execution_within_budget` puts them together: a request
returns, after one or two loops that keep their budget.
-/

namespace Zenith.Gateway

open Zenith.Protocol Zenith.Scheduler Zenith.Tables

/-! ## The counters -/

/-- The item-id repairs that were made. -/
def Run.repairs (run : Run) : Nat :=
  run.functionItemIdRepairAttempted.toNat + run.customToolItemIdRepairAttempted.toNat +
    run.messageItemIdRepairAttempted.toNat

/-- The recoveries that raised the limit of the loop. -/
def Run.raises (run : Run) : Nat :=
  run.encryptedContentRecovered.toNat + run.nativeReplayAttempted.toNat

theorem Run.repairs_le (run : Run) : run.repairs ≤ 3 := by
  have h₁ := Bool.toNat_le run.functionItemIdRepairAttempted
  have h₂ := Bool.toNat_le run.customToolItemIdRepairAttempted
  have h₃ := Bool.toNat_le run.messageItemIdRepairAttempted
  unfold repairs
  omega

theorem Run.raises_le (run : Run) : run.raises ≤ 2 := by
  have h₁ := Bool.toNat_le run.encryptedContentRecovered
  have h₂ := Bool.toNat_le run.nativeReplayAttempted
  unfold raises
  omega

/-- What the budget of a run is about. -/
structure Counts where
  tried : Finset String
  attempts : Nat
  sent : List String
  recoveries : List String
  repairs : Nat
  raises : Nat

def Run.counts (run : Run) : Counts where
  tried := run.tried
  attempts := run.attemptsThisRun
  sent := run.sent
  recoveries := run.recoveries
  repairs := run.repairs
  raises := run.raises

/-- What the answer to an attempt on `candidateId` does to the counters. -/
inductive Settles (candidateId : String) (before : Counts) : Counts → Prop
  | kept : Settles candidateId before before
  /-- An item-id repair takes the attempt back. -/
  | repaired : Settles candidateId before
      { before with
        tried := before.tried.erase candidateId
        attempts := before.attempts - 1
        recoveries := before.recoveries ++ [candidateId]
        repairs := before.repairs + 1 }
  /-- A native replay or a recovery raises the limit. -/
  | raised : Settles candidateId before
      { before with
        tried := before.tried.erase candidateId
        recoveries := before.recoveries ++ [candidateId]
        raises := before.raises + 1 }

/-! ## What a round does -/

theorem repairItemIds_counts {run run' : Run} {body : ErrorBody}
    (h : repairItemIds run body = some run') :
    run'.counts = { run.counts with repairs := run.repairs + 1 } := by
  simp only [repairItemIds, Option.or_eq_some_iff] at h
  -- One case for each of the repairs: it was not made before.
  rcases h with h | ⟨-, h | ⟨-, h⟩⟩ <;> split at h
  case inl.isTrue hflag =>
    obtain ⟨request, -, rfl⟩ := Option.map_eq_some_iff.mp h
    have hnot : run.functionItemIdRepairAttempted = false := by simp_all
    simp [Run.counts, Run.repairs, Run.raises, hnot]
    omega
  case inr.inl.isTrue hflag =>
    obtain ⟨request, -, rfl⟩ := Option.map_eq_some_iff.mp h
    have hnot : run.customToolItemIdRepairAttempted = false := by simp_all
    simp [Run.counts, Run.repairs, Run.raises, hnot]
    omega
  case inr.inr.isTrue hflag =>
    obtain ⟨request, -, rfl⟩ := Option.map_eq_some_iff.mp h
    have hnot : run.messageItemIdRepairAttempted = false := by simp_all
    simp [Run.counts, Run.repairs, Run.raises, hnot]
  all_goals exact nomatch h

variable {context : RequestContext} {candidateId : String} {failure : AttemptFailure}

theorem recoverEncrypted_settles {run run' : Run}
    (h : recoverEncrypted context run candidateId failure = some run') :
    Settles candidateId run.counts run'.counts := by
  unfold recoverEncrypted at h
  split at h
  case isFalse => exact nomatch h
  case isTrue =>
    obtain ⟨request, hrequest, rfl⟩ := Option.map_eq_some_iff.mp h
    have hnot : run.encryptedContentRecovered = false := by
      unfold tryRecoverEncryptedContent at hrequest
      split at hrequest
      case isTrue => exact nomatch hrequest
      case isFalse hattempted => exact Bool.not_eq_true _ ▸ hattempted
    have hraises : run.raises + 1 = 1 + run.nativeReplayAttempted.toNat := by
      simp [Run.raises, hnot, Nat.add_comm]
    have hraised := @Settles.raised candidateId run.counts
    rw [show run.counts.raises = run.raises from rfl, hraises] at hraised
    exact hraised

variable {run : Run} {route : Route} {round : Round}

theorem replayOr_settles {wanted : Bool} {rest : Control}
    (h : Settles candidateId run.counts rest.run.counts) :
    Settles candidateId run.counts
      (replayOr context run candidateId route round failure wanted rest).run.counts := by
  unfold replayOr
  split
  case isFalse => exact h
  case isTrue hwanted =>
    have hnot : run.nativeReplayAttempted = false := by simp_all
    split
    case h_1 => exact .kept
    case h_2 =>
      have hraises : run.raises + 1 = run.encryptedContentRecovered.toNat + 1 := by
        simp [Run.raises, hnot]
      have hraised := @Settles.raised candidateId run.counts
      rw [show run.counts.raises = run.raises from rfl, hraises] at hraised
      exact hraised
    case h_3 => exact h

variable {selection : Selection}

theorem onRejected_settles {status : Nat} {body : Option ErrorBody} :
    Settles selection.candidateId run.counts
      (onRejected context run selection route round status failure body).run.counts := by
  cases body with
  | none =>
    rw [onRejected]
    split <;> exact .kept
  | some body =>
    rw [onRejected]
    split
    case h_1 repaired hrepair =>
      split at hrepair
      case isFalse => exact nomatch hrepair
      case isTrue =>
        have hcounts := repairItemIds_counts hrepair
        have heq : ({ repaired.again selection.candidateId with
            attempt := repaired.attempt - 1
            attemptsThisRun := repaired.attemptsThisRun - 1 } : Run).counts =
            { repaired.counts with
              tried := repaired.counts.tried.erase selection.candidateId
              attempts := repaired.counts.attempts - 1
              recoveries := repaired.counts.recoveries ++ [selection.candidateId] } := rfl
        rw [Control.run, heq, hcounts]
        exact .repaired
    case h_2 =>
      refine replayOr_settles ?_
      split
      case h_1 recovered hrecovered => exact recoverEncrypted_settles hrecovered
      case h_2 =>
        dsimp only
        split
        case isFalse => exact .kept
        case isTrue =>
          -- The flags of an affinity miss are no counters.
          split <;> split <;> exact .kept

theorem onCompleted_settles {body : Option CompletedBody} :
    Settles candidateId run.counts (onCompleted context run candidateId route body).run.counts := by
  cases body with
  | none => exact .kept
  | some body =>
    rw [onCompleted]
    split
    case h_1 failure _ =>
      split
      case h_1 recovered hrecovered => exact recoverEncrypted_settles hrecovered
      case h_2 => split <;> exact .kept
    case h_2 => split <;> exact .kept

theorem onStreamed_settles {failure : Option BootstrapFailure} :
    Settles candidateId run.counts
      (onStreamed context run candidateId route round failure).run.counts := by
  cases failure with
  | none => exact .kept
  | some bootstrap =>
    refine replayOr_settles ?_
    split
    case h_1 recovered hrecovered => exact recoverEncrypted_settles hrecovered
    case h_2 => split <;> exact .kept

theorem onAnswer_settles :
    Settles selection.candidateId run.counts
      (onAnswer context run selection route round).run.counts := by
  unfold onAnswer
  split
  · exact .kept
  · exact onRejected_settles
  · exact onCompleted_settles
  · exact onStreamed_settles

/-- A selected candidate is either passed over or asked once. -/
theorem onSelected_counts :
    (onSelected context run selection round).run.counts = run.counts ∨
      Settles selection.candidateId (run.attempted selection.candidateId).counts
        (onSelected context run selection round).run.counts := by
  unfold onSelected
  split
  case h_1 => exact .inl rfl
  case h_2 route _ =>
    generalize prepareForCandidate context.tierOwner run.request route.defaultTier
      (context.wireApi = .messages) = request
    dsimp only
    split
    case h_1 => exact .inl rfl
    case h_2 => split <;> exact .inl rfl
    case h_3 => exact .inl rfl
    case h_4 =>
      exact .inr (@onAnswer_settles context (Run.attempted { run with request } selection.candidateId)
        route round selection)

/-- The selected candidate is in the pool and was not tried. -/
theorem selectAndReserve_spec (h : selectAndReserve context run round = some selection) :
    (round.scheduler.candidates.get? selection.candidateId).isSome ∧
      selection.candidateId ∉ run.tried := by
  have hselected : (round.scheduler.selectFor (selectionRequest context run round) .text).2 =
      some selection := (Option.filter_eq_some_iff.mp h).1
  obtain ⟨candidate, hget, hselectable⟩ :=
    round.scheduler.selected_selectable (selectionRequest context run round) .text hselected
  refine ⟨by rw [hget]; rfl, ?_⟩
  have huntried : candidate.id ∉ run.tried := by
    simp only [PoolScheduler.selectable, Bool.and_eq_true, decide_eq_true_eq] at hselectable
    exact hselectable.1.1
  rwa [CandidateTable.get?_id hget] at huntried

/-- A round ends the loop without an attempt, passes a candidate over, or asks it once. -/
theorem iterate_cases (context : RequestContext) (run : Run) (round : Round) :
    ((iterate context run round).run = run ∧ ∀ run', iterate context run round ≠ .next run') ∨
      ∃ candidateId, (round.scheduler.candidates.get? candidateId).isSome ∧ candidateId ∉ run.tried ∧
        ((iterate context run round).run.counts =
            { run.counts with tried := insert candidateId run.tried } ∨
          Settles candidateId
            { run.counts with
              tried := insert candidateId run.tried
              attempts := satAdd 64 run.attemptsThisRun 1
              sent := run.sent ++ [candidateId] }
            (iterate context run round).run.counts) := by
  unfold iterate
  cases hselect : selectAndReserve context run round with
  | none =>
    refine .inl ?_
    dsimp only
    unfold onNothing
    split
    · exact ⟨rfl, fun _ h => nomatch h⟩
    · split <;> exact ⟨rfl, fun _ h => nomatch h⟩
  | some selection =>
    obtain ⟨hmem, huntried⟩ := selectAndReserve_spec hselect
    exact .inr ⟨selection.candidateId, hmem, huntried, onSelected_counts⟩

/-! ## The budget -/

/-- Attempts and repairs are the requests that were sent; a candidate is asked again only after a
recovery of its own. -/
structure Budget (options : RetryOptions) (counts : Counts) : Prop where
  sent : counts.sent.length = counts.attempts + counts.repairs
  attempts : counts.attempts ≤ max options.maxRetryCandidates 8 + counts.raises
  recoveries : counts.recoveries.length = counts.repairs + counts.raises
  asked : ∀ candidateId, counts.sent.count candidateId ≤
    counts.recoveries.count candidateId + if candidateId ∈ counts.tried then 1 else 0

theorem budget_start (options : RetryOptions) (request : Json) (attempt : Nat) :
    Budget options ({ request, attempt } : Run).counts where
  sent := rfl
  attempts := Nat.zero_le _
  recoveries := rfl
  asked _ := Nat.zero_le _

variable {options : RetryOptions} {counts : Counts}

/-- Passing over a candidate. -/
theorem Budget.skip (h : Budget options counts)
    (candidateId : String) :
    Budget options { counts with tried := insert candidateId counts.tried } where
  sent := h.sent
  attempts := h.attempts
  recoveries := h.recoveries
  asked other := by
    refine (h.asked other).trans (Nat.add_le_add_left ?_ _)
    by_cases hmem : other ∈ counts.tried
    · rw [if_pos hmem, if_pos (Finset.mem_insert_of_mem hmem)]
    · rw [if_neg hmem]
      exact Nat.zero_le _

/-- Asking a candidate that was not tried, when the limit allows it. -/
theorem Budget.ask (h : Budget options counts)
    (huntried : candidateId ∉ counts.tried)
    (hlimit : counts.attempts < max options.maxRetryCandidates 8 + counts.raises) :
    Budget options
      { counts with
        tried := insert candidateId counts.tried
        attempts := counts.attempts + 1
        sent := counts.sent ++ [candidateId] } where
  sent := by
    show (counts.sent ++ [candidateId]).length = counts.attempts + 1 + counts.repairs
    rw [List.length_append, h.sent, List.length_singleton]
    omega
  attempts := hlimit
  recoveries := h.recoveries
  asked other := by
    have hasked := h.asked other
    dsimp only at hasked ⊢
    rw [List.count_append, List.count_singleton]
    by_cases heq : other = candidateId
    · rw [heq, if_neg huntried] at hasked
      rw [heq, beq_self_eq_true, if_pos rfl, if_pos (Finset.mem_insert_self _ _)]
      exact Nat.add_le_add_right hasked 1
    · rw [if_neg (by simpa using Ne.symm heq)]
      refine hasked.trans (Nat.add_le_add_left ?_ _)
      by_cases hmem : other ∈ counts.tried
      · rw [if_pos hmem, if_pos (Finset.mem_insert_of_mem hmem)]
      · rw [if_neg hmem]
        exact Nat.zero_le _

/-- A recovery frees the candidate that was just asked. -/
theorem count_recovered (h : ∀ other, counts.sent.count other ≤
      counts.recoveries.count other + if other ∈ counts.tried then 1 else 0) (other : String) :
    counts.sent.count other ≤ (counts.recoveries ++ [candidateId]).count other +
      if other ∈ counts.tried.erase candidateId then 1 else 0 := by
  have hasked := h other
  rw [List.count_append, List.count_singleton]
  by_cases heq : other = candidateId
  · rw [heq, beq_self_eq_true, if_pos rfl, if_neg (Finset.notMem_erase candidateId counts.tried)]
    rw [heq] at hasked
    refine hasked.trans ?_
    split <;> omega
  · rw [if_neg (by simpa using Ne.symm heq)]
    refine hasked.trans (Nat.add_le_add_left ?_ _)
    by_cases hmem : other ∈ counts.tried
    · rw [if_pos hmem, if_pos (Finset.mem_erase_of_ne_of_mem heq hmem)]
    · rw [if_neg hmem]
      exact Nat.zero_le _

theorem Budget.settle {before after : Counts}
    (h : Budget options before) (hattempts : 1 ≤ before.attempts)
    (hsettles : Settles candidateId before after) : Budget options after := by
  have hsent := h.sent
  have hlimit := h.attempts
  have hrecoveries := h.recoveries
  cases hsettles with
  | kept => exact h
  | repaired =>
    refine ⟨?_, ?_, ?_, count_recovered h.asked⟩ <;> dsimp only
    · omega
    · omega
    · rw [List.length_append, List.length_singleton]
      omega
  | raised =>
    refine ⟨hsent, ?_, ?_, count_recovered h.asked⟩ <;> dsimp only
    · omega
    · rw [List.length_append, List.length_singleton]
      omega

/-! ## The measure -/

/-- The recoveries and the candidates of `pool` that are left. -/
def Counts.remaining (pool : Finset String) (counts : Counts) : Nat :=
  (5 - counts.recoveries.length) + (pool \ counts.tried).card

theorem card_remaining {pool tried : Finset String} (hpool : candidateId ∈ pool)
    (huntried : candidateId ∉ tried) :
    (pool \ insert candidateId tried).card + 1 = (pool \ tried).card := by
  rw [Finset.sdiff_insert]
  exact Finset.card_erase_add_one (Finset.mem_sdiff.mpr ⟨hpool, huntried⟩)

/-- Asking a candidate takes it from those that are left, or takes a recovery. -/
theorem Settles.remaining_lt {pool : Finset String} {counts after : Counts}
    (hpool : candidateId ∈ pool) (huntried : candidateId ∉ counts.tried)
    (hleft : after.recoveries.length ≤ 5) {attempts : Nat} {sent : List String}
    (h : Settles candidateId
      { counts with tried := insert candidateId counts.tried, attempts, sent } after) :
    after.remaining pool < counts.remaining pool := by
  have hcard := card_remaining hpool huntried
  unfold Counts.remaining
  cases h with
  | kept =>
    dsimp only
    omega
  | repaired =>
    dsimp only at hleft ⊢
    rw [Finset.erase_insert huntried]
    rw [List.length_append, List.length_singleton] at hleft ⊢
    omega
  | raised =>
    dsimp only at hleft ⊢
    rw [Finset.erase_insert huntried]
    rw [List.length_append, List.length_singleton] at hleft ⊢
    omega

section
variable {options : RetryOptions} {context : RequestContext} {run : Run} {pool : Finset String}

theorem Run.limit_le (options : RetryOptions) (run : Run) :
    run.limit options ≤ max options.maxRetryCandidates 8 + run.raises := by
  have hlimit := retryCandidateLimit_le options.maxRetryCandidates run.ownerRecoveryConfirmed
  unfold limit raises
  omega

/-- A run within its budget made at most five recoveries. -/
theorem Budget.recoveries_le (h : Budget options run.counts) : run.counts.recoveries.length ≤ 5 := by
  have hrepairs := run.repairs_le
  have hraises := run.raises_le
  rw [h.recoveries]
  show run.repairs + run.raises ≤ 5
  omega

/-- A round keeps the budget, and when the loop goes on less is left. -/
theorem Budget.iterate {round : Round}
    (hpool : ∀ id, (round.scheduler.candidates.get? id).isSome → id ∈ pool)
    (h : Budget options run.counts) (hlimit : run.attemptsThisRun < run.limit options) :
    Budget options (iterate context run round).run.counts ∧
      ∀ run', Gateway.iterate context run round = .next run' →
        run'.counts.remaining pool < run.counts.remaining pool := by
  have hbelow : run.attemptsThisRun < max options.maxRetryCandidates 8 + run.raises :=
    Nat.lt_of_lt_of_le hlimit (run.limit_le options)
  -- Far from the end of the counter: the limit is at most ten.
  have hcount : satAdd 64 run.attemptsThisRun 1 = run.attemptsThisRun + 1 := by
    have hmax := options.inRange.2
    have hraises := run.raises_le
    exact satAdd_of_lt (by omega)
  rcases iterate_cases context run round with ⟨hrun, hends⟩ | ⟨candidateId, hmem, huntried, hround⟩
  · rw [hrun]
    exact ⟨h, fun run' hnext => absurd hnext (hends run')⟩
  · have hbudget : Budget options (Gateway.iterate context run round).run.counts := by
      rcases hround with hskip | hsettles
      · rw [hskip]
        exact h.skip candidateId
      · rw [hcount] at hsettles
        exact (h.ask huntried hbelow).settle (Nat.le_add_left 1 _) hsettles
    refine ⟨hbudget, fun run' hnext => ?_⟩
    rw [hnext] at hround hbudget
    rcases hround with hskip | hsettles
    · rw [show run'.counts = _ from hskip]
      have hcard := card_remaining (hpool candidateId hmem) huntried
      show 5 - run.counts.recoveries.length + (pool \ insert candidateId run.tried).card <
        5 - run.counts.recoveries.length + (pool \ run.tried).card
      omega
    · exact @Settles.remaining_lt candidateId pool run.counts _ (hpool candidateId hmem) huntried
        hbudget.recoveries_le _ _ hsettles

/-! ## Runs -/

variable {rounds : Nat → Round}

/-- The loop returns, within its budget. -/
theorem loop_returns (hpool : ∀ n id, ((rounds n).scheduler.candidates.get? id).isSome → id ∈ pool)
    {fuel n : Nat} (h : Budget options run.counts) (hfuel : run.counts.remaining pool < fuel) :
    ∃ run' n' reply, loop options context rounds fuel n run = some (run', n', reply) ∧
      Budget options run'.counts := by
  induction fuel generalizing n run with
  | zero => exact absurd hfuel (Nat.not_lt_zero _)
  | succ fuel ih =>
    rw [loop]
    split
    case isFalse => exact ⟨run, n, none, rfl, h⟩
    case isTrue hlimit =>
      obtain ⟨hbudget, hless⟩ := @Budget.iterate _ context _ _ _ (hpool n) h hlimit
      cases hround : iterate context run (rounds n) with
      | next next =>
        rw [hround] at hbudget
        exact ih hbudget (Nat.lt_of_lt_of_le (hless next hround) (Nat.le_of_lt_succ hfuel))
      | stop last reply =>
        rw [hround] at hbudget
        exact ⟨last, n + 1, some reply, rfl, hbudget⟩
      | leave last =>
        rw [hround] at hbudget
        exact ⟨last, n + 1, none, rfl, hbudget⟩

theorem loop_start (hpool : ∀ n id, ((rounds n).scheduler.candidates.get? id).isSome → id ∈ pool)
    {fuel : Nat} (hfuel : pool.card + 5 < fuel) (n : Nat) (request : Json) (attempt : Nat) :
    ∃ run n' reply, loop options context rounds fuel n { request, attempt } = some (run, n', reply) ∧
      Budget options run.counts := by
  refine loop_returns hpool (budget_start options request attempt) ?_
  show 5 - 0 + (pool \ ∅).card < fuel
  rw [Finset.sdiff_empty]
  omega

/-- Without a reset the request is over after its loop. -/
theorem execute_once (hpool : ∀ n id, ((rounds n).scheduler.candidates.get? id).isSome → id ∈ pool)
    (hreset : context.allowPreviousResponseReset = false) {fuel : Nat} (hfuel : pool.card + 6 < fuel)
    (n : Nat) :
    ∃ run reply, executeRequest options rounds fuel n context = some ⟨[run], reply⟩ ∧
      Budget options run.counts := by
  obtain ⟨fuel, rfl⟩ : ∃ k, fuel = k + 1 := ⟨fuel - 1, by omega⟩
  obtain ⟨run, n', reply, hloop, hbudget⟩ := @loop_start options context _ _ hpool
    fuel (by omega) n context.request context.attemptOffset
  refine ⟨run, ?_⟩
  rw [executeRequest, hloop]
  cases reply with
  | some reply => exact ⟨reply, rfl, hbudget⟩
  | none =>
    dsimp only [Option.bind_eq_bind, Option.bind_some]
    split
    case h_1 =>
      rw [hreset, Bool.false_and, Bool.false_and, Bool.false_and, if_neg Bool.false_ne_true]
      exact ⟨_, rfl, hbudget⟩
    case h_2 => exact ⟨_, rfl, hbudget⟩

/-- Every request returns, after its loop and at most one more that starts over, whatever the upstream and
the scheduler do with a finite pool. A loop makes at most `max maxRetryCandidates 8` attempts, two more for
a recovery from encrypted content and a native replay, and three more for item-id repairs; each candidate
is asked once, and once more for each recovery of its own. -/
theorem execution_within_budget (options : RetryOptions) (context : RequestContext)
    (rounds : Nat → Round) (pool : Finset String)
    (hpool : ∀ n id, ((rounds n).scheduler.candidates.get? id).isSome → id ∈ pool) (fuel : Nat)
    (hfuel : pool.card + 8 ≤ fuel) :
    ∃ executed, executeRequest options rounds fuel 0 context = some executed ∧
      1 ≤ executed.runs.length ∧ executed.runs.length ≤ 2 ∧
      ∀ run ∈ executed.runs,
        run.sent.length ≤ max options.maxRetryCandidates 8 + 2 + 3 ∧
        run.raises ≤ 2 ∧ run.repairs ≤ 3 ∧ run.recoveries.length = run.raises + run.repairs ∧
        ∀ candidateId, run.sent.count candidateId ≤ 1 + run.recoveries.count candidateId := by
  -- What the budget says about a run.
  have hwithin : ∀ run : Run, Budget options run.counts →
      run.sent.length ≤ max options.maxRetryCandidates 8 + 2 + 3 ∧
        run.raises ≤ 2 ∧ run.repairs ≤ 3 ∧ run.recoveries.length = run.raises + run.repairs ∧
        ∀ candidateId, run.sent.count candidateId ≤ 1 + run.recoveries.count candidateId := by
    intro run h
    have hsent : run.sent.length = run.attemptsThisRun + run.repairs := h.sent
    have hattempts : run.attemptsThisRun ≤ max options.maxRetryCandidates 8 + run.raises := h.attempts
    have hrecoveries : run.recoveries.length = run.repairs + run.raises := h.recoveries
    have hraises := run.raises_le
    have hrepairs := run.repairs_le
    refine ⟨by omega, hraises, hrepairs, by omega, fun candidateId => ?_⟩
    refine (h.asked candidateId).trans ?_
    rw [Nat.add_comm]
    refine Nat.add_le_add_right ?_ _
    split <;> omega
  obtain ⟨fuel, rfl⟩ : ∃ k, fuel = k + 1 := ⟨fuel - 1, by omega⟩
  obtain ⟨run, n, reply, hloop, hbudget⟩ := @loop_start options context _ _ hpool
    fuel (by omega) 0 context.request context.attemptOffset
  have hone : ∀ reply : Reply, ∀ run' ∈ (Executed.mk [run] reply).runs, _ := fun reply run' hmem =>
    List.mem_singleton.mp hmem ▸ hwithin run hbudget
  rw [executeRequest, hloop]
  cases reply with
  | some reply => exact ⟨⟨[run], reply⟩, rfl, Nat.le_refl 1, one_le_two, hone reply⟩
  | none =>
    dsimp only [Option.bind_eq_bind, Option.bind_some]
    split
    case h_2 => exact ⟨_, rfl, Nat.le_refl 1, one_le_two, hone _⟩
    case h_1 object _ =>
      split
      case isFalse => exact ⟨_, rfl, Nat.le_refl 1, one_le_two, hone _⟩
      case isTrue =>
        -- The run that starts over cannot start over again.
        obtain ⟨second, reply, hnested, hsecond⟩ := @execute_once options
          (resetContext context run object) _ _ hpool rfl fuel (by omega) n
        rw [hnested]
        refine ⟨⟨[run, second], reply⟩, rfl, one_le_two, Nat.le_refl 2, fun run' hmem => ?_⟩
        rcases List.mem_pair.mp hmem with rfl | rfl
        · exact hwithin run' hbudget
        · exact hwithin run' hsecond

end

/-! One source. It first asks for the namespace of function items and then answers. -/

def singleSource : PoolScheduler :=
  PoolScheduler.new.upsert { id := "a", kind := .apiSource, sourceId := "s", models := {"m"} }

def strictRound (n : Nat) : Round where
  scheduler := singleSource
  nowMs := n
  route := some { sourceModel := "m", account := false, passthrough := true, defaultTier := .standard }
  answer :=
    if n = 0 then .rejected 400 ⟨400, "upstream_invalid_request"⟩ (some { requiresFcPrefix := true })
    else .completed (some {})

def strictContext : RequestContext where
  request := .ofFields [("input", .array [.ofFields [("type", .string "function_call"),
    ("id", .string "call_1")]])]
  tierOwner := .client
  model := "m"
  stream := false
  wireApi := .responses
  responseAffinityKey := none
  promptAffinityKey := none
  allowPreviousResponseReset := true
  attemptOffset := 0

theorem execution_within_budget_strict :
    ∃ executed, executeRequest ⟨3, by decide⟩ strictRound 9 0 strictContext = some executed ∧
      1 ≤ executed.runs.length ∧ executed.runs.length ≤ 2 ∧
      ∀ run ∈ executed.runs, run.sent.length ≤ max 3 8 + 2 + 3 ∧
        run.raises ≤ 2 ∧ run.repairs ≤ 3 ∧ run.recoveries.length = run.raises + run.repairs ∧
        ∀ candidateId, run.sent.count candidateId ≤ 1 + run.recoveries.count candidateId := by
  refine execution_within_budget ⟨3, by decide⟩ strictContext strictRound {"a"} (fun n id hmem => ?_) 9
    (by decide)
  have hget : singleSource.candidates.get? id =
      (if "a" = id then some _ else CandidateTable.empty.get? id) := CandidateTable.get?_insert _ _ _
  rw [show (strictRound n).scheduler = singleSource from rfl, hget, CandidateTable.get?_empty] at hmem
  split at hmem
  case isTrue heq => exact Finset.mem_singleton.mpr heq.symm
  case isFalse => exact nomatch hmem

/-- The source is asked twice, and the repair takes the first attempt back. -/
example : (executeRequest ⟨3, by decide⟩ strictRound 9 0 strictContext).map (fun executed =>
    (executed.reply, executed.runs.map fun run => (run.sent, run.attemptsThisRun))) =
    some (.completed, [(["a", "a"], 1)]) := by
  decide +kernel

end Zenith.Gateway
