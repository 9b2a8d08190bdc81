import Mathlib
import Zenith.Gateway.RetryBudget
import Zenith.Gateway.WebSocketConnect

/-!
# Repaired requests

A round that rewrites the request of the client forgets the candidate that it asked, so that the rewritten
request is sent to it. Whether it is sent depends on the counters of the loop. `execute_request` takes the
attempt back or raises its limit, so there is always one more attempt (`httpNext_followedUp`).
`connect_upstream` raises its limit after a recovery from encrypted content only: what an item-id repair
leaves is what the limit permitted anyway (`connectNext_followedUp_iff`). `repaired_requests_sent` says so
for whole runs.
-/

namespace Zenith.Gateway

open Zenith.Protocol Zenith.Scheduler Zenith.Tables

/-! ## Runs -/

def Control.next? : Control → Option Run
  | .next run => some run
  | .stop _ _ | .leave _ => none

def ConnectControl.next? : ConnectControl → Option Run
  | .next run => some run
  | .stop _ _ | .leave _ => none

/-- A round of `execute_request`, if the loop begins it and goes on after it. -/
def httpNext (options : RetryOptions) (context : RequestContext) (run : Run) (round : Round) : Option Run :=
  if run.attemptsThisRun < run.limit options then (iterate context run round).next? else none

/-- A round of `connect_upstream`, if the loop begins it and goes on after it. -/
def connectNext (options : RetryOptions) (context : RequestContext) (run : Run) (round : ConnectRound) :
    Option Run :=
  if run.attemptsThisRun < run.limit options then (connectIterate context run round).next? else none

/-- The variables of a loop before and after each of its first `n` rounds. -/
def RunsThrough {ρ : Type} (next : Run → ρ → Option Run) (rounds : Nat → ρ) (states : Nat → Run) (n : Nat) :
    Prop :=
  (∃ request attempt, states 0 = { request, attempt }) ∧
    ∀ i < n, next (states i) (rounds i) = some (states (i + 1))

/-- If the round recovered the request after an attempt on a candidate, the loop begins another round and
may select that candidate. -/
def FollowedUp (options : RetryOptions) (before after : Run) : Prop :=
  ∀ candidateId, after.sent = before.sent ++ [candidateId] →
    before.repairs + before.raises < after.repairs + after.raises →
    after.attemptsThisRun < after.limit options ∧ candidateId ∉ after.tried

variable {options : RetryOptions}

theorem FollowedUp.of_counts {before after : Run} (h : after.sent = before.sent) :
    FollowedUp options before after := by
  intro candidateId hsent
  rw [h] at hsent
  exact absurd (congrArg List.length hsent) (by simp)

theorem append_singleton_inj {sent : List String} {first second : String}
    (h : sent ++ [first] = sent ++ [second]) : first = second :=
  List.singleton_inj.mp (List.append_cancel_left h)

/-! ## The limit -/

theorem Run.limit_eq (options : RetryOptions) (run : Run) :
    run.limit options =
      retryCandidateLimit options.maxRetryCandidates run.ownerRecoveryConfirmed + run.raises :=
  Nat.add_assoc _ _ _

theorem retryCandidateLimit_mono (options : RetryOptions) {before after : Bool}
    (h : before = true → after = true) :
    retryCandidateLimit options.maxRetryCandidates before ≤
      retryCandidateLimit options.maxRetryCandidates after := by
  unfold retryCandidateLimit
  cases before with
  | true => rw [h rfl]
  | false =>
    rw [if_neg Bool.false_ne_true]
    split
    · exact options.inRange.2
    · exact Nat.le_refl _

/-- A round never lowers the limit, and a recovery that raises it does so by one. -/
theorem Run.limit_add_le {before after : Run} {k : Nat}
    (howner : before.ownerRecoveryConfirmed = true → after.ownerRecoveryConfirmed = true)
    (hraises : after.raises = before.raises + k) : before.limit options + k ≤ after.limit options := by
  rw [limit_eq, limit_eq, hraises, ← Nat.add_assoc]
  exact Nat.add_le_add_right
    (Nat.add_le_add_right (retryCandidateLimit_mono options howner) before.raises) k

/-- The counter of attempts is far from its end. -/
theorem Run.attempted_count {run : Run}
    (h : run.attemptsThisRun < run.limit options) :
    satAdd 64 run.attemptsThisRun 1 = run.attemptsThisRun + 1 := by
  have hlimit := run.limit_le options
  have hmax := options.inRange.2
  have hraises := run.raises_le
  exact satAdd_of_lt (by omega)

/-! ## Requests over HTTP -/

/-- The candidates of the owner are not forgotten. -/
def Run.KeepsOwner (before after : Run) : Prop :=
  before.ownerRecoveryConfirmed = true → after.ownerRecoveryConfirmed = true

variable {run run' : Run}

theorem repairItemIds_owner {body : ErrorBody} (h : repairItemIds run body = some run') :
    run'.ownerRecoveryConfirmed = run.ownerRecoveryConfirmed := by
  simp only [repairItemIds, Option.or_eq_some_iff] at h
  rcases h with h | ⟨-, h | ⟨-, h⟩⟩ <;> split at h
  case inl.isTrue | inr.inl.isTrue | inr.inr.isTrue =>
    obtain ⟨request, -, rfl⟩ := Option.map_eq_some_iff.mp h
    rfl
  all_goals cases h

variable {context : RequestContext}

theorem recoverEncrypted_owner {candidateId : String}
    {failure : AttemptFailure} (h : recoverEncrypted context run candidateId failure = some run') :
    run'.ownerRecoveryConfirmed = run.ownerRecoveryConfirmed := by
  unfold recoverEncrypted at h
  split at h
  case isFalse => exact nomatch h
  case isTrue =>
    obtain ⟨request, -, rfl⟩ := Option.map_eq_some_iff.mp h
    rfl

section
variable {context : RequestContext} {run : Run} {selection : Selection} {candidateId : String}
  {route : Route} {round : Round}

theorem replayOr_owner {failure : AttemptFailure} {wanted : Bool} {rest : Control}
    (h : run.KeepsOwner rest.run) :
    run.KeepsOwner (replayOr context run candidateId route round failure wanted rest).run := by
  unfold replayOr
  split
  case isFalse => exact h
  case isTrue =>
    split
    case h_1 => exact id
    case h_2 => exact id
    case h_3 => exact h

theorem onRejected_owner {status : Nat} {failure : AttemptFailure} {body : Option ErrorBody} :
    run.KeepsOwner (onRejected context run selection route round status failure body).run := by
  cases body with
  | none =>
    rw [onRejected]
    split <;> exact id
  | some body =>
    rw [onRejected]
    split
    case h_1 repaired hrepair =>
      split at hrepair
      case isFalse => cases hrepair
      case isTrue => exact fun h => (repairItemIds_owner hrepair).trans h
    case h_2 =>
      refine replayOr_owner ?_
      split
      case h_1 recovered hrecovered => exact fun h => (recoverEncrypted_owner hrecovered).trans h
      case h_2 =>
        dsimp only
        split
        case isFalse => exact id
        case isTrue =>
          -- An affinity miss may only set the flag.
          have hor : ∀ flag : Bool, run.ownerRecoveryConfirmed = true →
              (run.ownerRecoveryConfirmed || flag) = true := fun flag h => by rw [h, Bool.true_or]
          split <;> split <;> first | exact id | exact hor _

theorem onCompleted_owner {body : Option CompletedBody} :
    run.KeepsOwner (onCompleted context run candidateId route body).run := by
  cases body with
  | none => exact id
  | some body =>
    rw [onCompleted]
    split
    case h_1 failure _ =>
      split
      case h_1 recovered hrecovered => exact fun h => (recoverEncrypted_owner hrecovered).trans h
      case h_2 => split <;> exact id
    case h_2 => split <;> exact id

theorem onStreamed_owner {failure : Option BootstrapFailure} :
    run.KeepsOwner (onStreamed context run candidateId route round failure).run := by
  cases failure with
  | none => exact id
  | some bootstrap =>
    refine replayOr_owner ?_
    split
    case h_1 recovered hrecovered => exact fun h => (recoverEncrypted_owner hrecovered).trans h
    case h_2 => split <;> exact id

theorem onAnswer_owner : run.KeepsOwner (onAnswer context run selection route round).run := by
  unfold onAnswer
  split
  · exact id
  · exact onRejected_owner
  · exact onCompleted_owner
  · exact onStreamed_owner

theorem iterate_owner (context : RequestContext) (run : Run) (round : Round) :
    run.KeepsOwner (iterate context run round).run := by
  unfold iterate
  split
  case h_1 =>
    unfold onNothing
    split
    · exact id
    · split <;> exact id
  case h_2 selection _ =>
    unfold onSelected
    split
    case h_1 => exact id
    case h_2 route _ =>
      dsimp only
      split
      case h_1 => exact id
      case h_2 => split <;> exact id
      case h_3 => exact id
      case h_4 =>
        refine fun h => @onAnswer_owner context (Run.attempted _ selection.candidateId) selection route
          round ?_
        exact h

end

theorem Control.of_next {control : Control} {run : Run} (h : control.next? = some run) :
    control = .next run := by
  cases control with
  | next next => exact congrArg _ (Option.some.inj h)
  | stop => exact nomatch h
  | leave => exact nomatch h

/-- A recovery over HTTP leaves room for one more attempt. -/
theorem httpNext_followedUp
    {round : Round} (h : httpNext options context run round = some run') : FollowedUp options run run' := by
  unfold httpNext at h
  split at h
  case isFalse => exact nomatch h
  case isTrue hlimit =>
    have hnext := Control.of_next h
    have howner := iterate_owner context run round
    have hround := iterate_cases context run round
    rw [hnext] at howner hround
    rcases hround with ⟨-, hends⟩ | ⟨asked, -, -, hskip | hsettles⟩
    · exact absurd rfl (hends run')
    · exact FollowedUp.of_counts (congrArg Counts.sent hskip)
    · rw [Run.attempted_count hlimit, Control.run] at hsettles
      generalize hafter : run'.counts = after at hsettles
      have hsent : run'.sent = after.sent := congrArg Counts.sent hafter
      have htried : run'.tried = after.tried := congrArg Counts.tried hafter
      have hattempts : run'.attemptsThisRun = after.attempts := congrArg Counts.attempts hafter
      have hrepairs : run'.repairs = after.repairs := congrArg Counts.repairs hafter
      have hraises : run'.raises = after.raises := congrArg Counts.raises hafter
      intro candidateId hasked hrecovered
      rw [hsent] at hasked
      rw [hrepairs, hraises] at hrecovered
      rw [htried, hattempts]
      cases hsettles with
      | kept => exact absurd hrecovered (Nat.lt_irrefl _)
      | repaired =>
        obtain rfl := append_singleton_inj hasked
        exact ⟨Nat.lt_of_lt_of_le hlimit (Run.limit_add_le (k := 0) howner hraises),
          Finset.notMem_erase asked _⟩
      | raised =>
        obtain rfl := append_singleton_inj hasked
        exact ⟨Nat.lt_of_lt_of_le (Nat.succ_lt_succ hlimit) (Run.limit_add_le howner hraises),
          Finset.notMem_erase asked _⟩

/-! ## Requests over WebSockets -/

/-- The item ids of the request are repaired after the first messages. -/
def Handshake.repairs (run : Run) : Handshake → Bool
  | .opened (some terminal) => (repairItemIds run terminal.body).isSome
  | .failed _ | .rejected _ _ _ | .opened none => false

/-- They are repaired after the attempt of this round. -/
def ConnectRound.repairs (run : Run) (round : ConnectRound) : Bool :=
  match round.prepared, round.payload with
  | .ok (), .ok () => round.handshake.repairs run
  | _, _ => false

/-- They are repaired in this round, when a candidate is selected. -/
def repairsItemIds (context : RequestContext) (run : Run) (round : ConnectRound) : Bool :=
  match round.route with
  | some route =>
    let request := prepareForCandidate context.tierOwner run.request route.defaultTier false
    route.wireApi = .responses && (route.passthrough && !round.httpOnly) && round.repairs { run with request }
  | none => false

/-- An item-id repair does not come after the last attempt that the limit permits. -/
def RepairFits (options : RetryOptions) (context : RequestContext) (run : Run) (round : ConnectRound) :
    Prop :=
  repairsItemIds context run round = true → run.attemptsThisRun + 1 < run.limit options

/-- What a round that goes on does after an attempt on `candidateId`. -/
inductive ConnectSettles (candidateId : String) (before after : Run) : Bool → Prop
  | kept (counts : after.counts = before.counts) : ConnectSettles candidateId before after false
  /-- An item-id repair: the attempt counts. -/
  | repaired
    (counts : after.counts = { before.counts with
      tried := before.tried.erase candidateId
      recoveries := before.recoveries ++ [candidateId]
      repairs := before.repairs + 1 })
    (owner : after.ownerRecoveryConfirmed = before.ownerRecoveryConfirmed) :
    ConnectSettles candidateId before after true
  /-- A recovery from encrypted content raises the limit. -/
  | raised
    (counts : after.counts = { before.counts with
      tried := before.tried.erase candidateId
      recoveries := before.recoveries ++ [candidateId]
      raises := before.raises + 1 })
    (owner : after.ownerRecoveryConfirmed = before.ownerRecoveryConfirmed) :
    ConnectSettles candidateId before after false

section
variable {context : RequestContext} {run run' : Run} {selection : Selection} {candidateId : String}

theorem connectRecover_settles {failure : AttemptFailure}
    (h : connectRecover run candidateId failure = some run') :
    ConnectSettles candidateId run run' false := by
  unfold connectRecover at h
  split at h
  case isFalse => exact nomatch h
  case isTrue =>
    obtain ⟨request, hrequest, rfl⟩ := Option.map_eq_some_iff.mp h
    have hnot : run.encryptedContentRecovered = false := by
      unfold tryRecoverEncryptedContent at hrequest
      split at hrequest
      case isTrue => exact nomatch hrequest
      case isFalse hattempted => exact Bool.not_eq_true _ ▸ hattempted
    have hraises : 1 + run.nativeReplayAttempted.toNat = run.raises + 1 := by
      simp [Run.raises, hnot, Nat.add_comm]
    refine .raised ?_ rfl
    rw [← hraises]
    rfl

theorem connectFailed_counts {status : Nat} {failure : AttemptFailure} {responseMissing : Bool}
    {last : Run} {result : ConnectResult}
    (h : (connectFailed run selection status failure responseMissing (.stop last result)).next? = some run') :
    run'.counts = run.counts := by
  unfold connectFailed at h
  dsimp only at h
  split at h
  case isFalse => exact nomatch h
  case isTrue =>
    split at h
    case isTrue => exact nomatch h
    case isFalse =>
      obtain rfl := Option.some.inj h
      split <;> rfl

theorem onTerminal_settles {terminal : ConnectTerminal}
    (h : (onTerminal run selection terminal).next? = some run') :
    ConnectSettles selection.candidateId run run' (repairItemIds run terminal.body).isSome := by
  unfold onTerminal at h
  split at h
  case h_1 repaired hrepair =>
    obtain rfl := Option.some.inj h
    have hcounts := repairItemIds_counts hrepair
    rw [hrepair]
    refine .repaired ?_ (show repaired.ownerRecoveryConfirmed = _ from repairItemIds_owner hrepair)
    show { repaired.counts with
      tried := repaired.counts.tried.erase selection.candidateId
      recoveries := repaired.counts.recoveries ++ [selection.candidateId] } = _
    rw [hcounts]
    rfl
  case h_2 hrepair =>
    rw [hrepair]
    split at h
    case h_1 recovered hrecovered =>
      obtain rfl := Option.some.inj h
      exact connectRecover_settles hrecovered
    case h_2 => exact .kept (connectFailed_counts h)

theorem onHandshake_settles {handshake : Handshake}
    (h : (onHandshake run selection handshake).next? = some run') :
    ConnectSettles selection.candidateId run run' (handshake.repairs run) := by
  cases handshake with
  | failed failure =>
    obtain rfl := Option.some.inj h
    exact .kept rfl
  | rejected status failure responseMissing =>
    rw [onHandshake] at h
    split at h
    case isTrue =>
      obtain rfl := Option.some.inj h
      exact .kept rfl
    case isFalse =>
      split at h
      case h_1 recovered hrecovered =>
        obtain rfl := Option.some.inj h
        exact connectRecover_settles hrecovered
      case h_2 => exact .kept (connectFailed_counts h)
  | opened terminal =>
    cases terminal with
    | none => exact nomatch h
    | some terminal => exact onTerminal_settles h

/-- Which item ids are repaired depends on the request and on the repairs that were made. -/
theorem repairItemIds_isSome (run : Run) (body : ErrorBody) :
    (repairItemIds run body).isSome =
      ((!run.functionItemIdRepairAttempted && body.requiresFcPrefix &&
          (repairCallPrefixedFunctionItemIds run.request).isSome) ||
        ((!run.customToolItemIdRepairAttempted && body.requiresCtcPrefix &&
            (repairCustomToolItemIds run.request).isSome) ||
          (!run.messageItemIdRepairAttempted && body.requiresMsgPrefix &&
            (removeItemPrefixedMessageIds run.request).isSome))) := by
  have hwhen : ∀ (wanted : Bool) (repaired : Option Json) (set : Json → Run),
      (if wanted = true then repaired.map set else none).isSome = (wanted && repaired.isSome) := by
    intro wanted repaired set
    cases wanted with
    | true => rw [if_pos rfl, Option.isSome_map, Bool.true_and]
    | false => rfl
  simp only [repairItemIds, Option.isSome_or, hwhen]

theorem ConnectRound.repairs_attempted (round : ConnectRound) (tried : Finset String) :
    round.repairs ({ run with tried }.attempted candidateId) = round.repairs run := by
  unfold repairs
  split
  case h_1 =>
    cases round.handshake with
    | opened terminal =>
      cases terminal with
      | none => rfl
      | some terminal =>
        rw [Handshake.repairs, Handshake.repairs, repairItemIds_isSome, repairItemIds_isSome]
        rfl
    | failed => rfl
    | rejected => rfl
  case h_2 => rfl

theorem onConnectAttempt_settles {round : ConnectRound}
    (h : (onConnectAttempt run selection round).next? = some run') :
    ConnectSettles selection.candidateId run run' (round.repairs run) := by
  unfold onConnectAttempt at h
  unfold ConnectRound.repairs
  split at h
  case h_1 hprepared =>
    obtain rfl := Option.some.inj h
    rw [hprepared]
    exact .kept rfl
  case h_2 => exact nomatch h
  case h_3 hprepared hpayload =>
    rw [hprepared, hpayload]
    exact onHandshake_settles h

end

variable {round : ConnectRound}

/-- A round that goes on passes its candidate over, or asks it once. -/
theorem connectIterate_cases (h : (connectIterate context run round).next? = some run') :
    (run'.sent = run.sent ∧ repairsItemIds context run round = false) ∨
      ∃ candidateId request, ConnectSettles candidateId
        ({ run with tried := insert candidateId run.tried, request }.attempted candidateId) run'
        (repairsItemIds context run round) := by
  unfold connectIterate at h
  split at h
  case h_1 => exact nomatch h
  case h_2 selection _ =>
    unfold onConnectSelected at h
    unfold repairsItemIds
    cases hroute : round.route with
    | none =>
      rw [hroute] at h
      obtain rfl := Option.some.inj h
      exact .inl ⟨rfl, rfl⟩
    | some route =>
      rw [hroute] at h
      dsimp only at h ⊢
      generalize prepareForCandidate context.tierOwner run.request route.defaultTier false = request at h ⊢
      split at h
      case isTrue hwire =>
        obtain rfl := Option.some.inj h
        rw [decide_eq_false hwire, Bool.false_and, Bool.false_and]
        exact .inl ⟨rfl, rfl⟩
      case isFalse hwire =>
        rw [decide_eq_true (not_not.mp hwire), Bool.true_and]
        split at h
        case isTrue hhttp =>
          obtain rfl := Option.some.inj h
          have hno : (route.passthrough && !round.httpOnly) = false := by
            rw [← Bool.not_true, ← hhttp]
            simp
          rw [hno, Bool.false_and]
          exact .inl ⟨rfl, rfl⟩
        case isFalse hhttp =>
          have hyes : (route.passthrough && !round.httpOnly) = true := by
            rw [← Bool.not_false, ← Bool.not_eq_true _ |>.mp hhttp]
            simp
          have hrepairs := @ConnectRound.repairs_attempted { run with request } selection.candidateId round
            (insert selection.candidateId run.tried)
          rw [hyes, Bool.true_and, ← hrepairs]
          exact .inr ⟨selection.candidateId, request, onConnectAttempt_settles h⟩

theorem ConnectControl.next_of_connectNext (h : connectNext options context run round = some run') :
    run.attemptsThisRun < run.limit options ∧ (connectIterate context run round).next? = some run' := by
  unfold connectNext at h
  split at h
  case isFalse => exact nomatch h
  case isTrue hlimit => exact ⟨hlimit, h⟩

/-- A recovery over WebSockets leaves room for one more attempt if and only if it is no item-id repair, or
does not come after the last attempt. -/
theorem connectNext_followedUp_iff (h : connectNext options context run round = some run') :
    FollowedUp options run run' ↔ RepairFits options context run round := by
  obtain ⟨hlimit, hnext⟩ := ConnectControl.next_of_connectNext h
  have hcount := Run.attempted_count hlimit
  unfold RepairFits
  rcases connectIterate_cases hnext with ⟨hsent, hrepairs⟩ | ⟨asked, request, hsettles⟩
  · rw [hrepairs]
    exact ⟨fun _ => (nomatch ·), fun _ => .of_counts hsent⟩
  · generalize repairsItemIds context run round = repairs at hsettles ⊢
    cases hsettles with
    | kept hcounts =>
      have hsame : run'.repairs + run'.raises = run.repairs + run.raises :=
        congrArg₂ (· + ·) (congrArg Counts.repairs hcounts) (congrArg Counts.raises hcounts)
      refine ⟨fun _ => (nomatch ·), fun _ candidateId _ hrecovered => ?_⟩
      rw [hsame] at hrecovered
      exact absurd hrecovered (Nat.lt_irrefl _)
    | raised hcounts howner =>
      have hattempts : run'.attemptsThisRun = run.attemptsThisRun + 1 :=
        (congrArg Counts.attempts hcounts).trans hcount
      have hsent : run'.sent = run.sent ++ [asked] := congrArg Counts.sent hcounts
      have htried : run'.tried = (insert asked run.tried).erase asked := congrArg Counts.tried hcounts
      refine ⟨fun _ => (nomatch ·), fun _ candidateId hasked _ => ?_⟩
      obtain rfl := append_singleton_inj (hsent.symm.trans hasked)
      rw [hattempts, htried]
      exact ⟨Nat.lt_of_lt_of_le (Nat.succ_lt_succ hlimit)
        (Run.limit_add_le howner.ge (congrArg Counts.raises hcounts)), Finset.notMem_erase asked _⟩
    | repaired hcounts howner =>
      have hattempts : run'.attemptsThisRun = run.attemptsThisRun + 1 :=
        (congrArg Counts.attempts hcounts).trans hcount
      have hsent : run'.sent = run.sent ++ [asked] := congrArg Counts.sent hcounts
      have htried : run'.tried = (insert asked run.tried).erase asked := congrArg Counts.tried hcounts
      have hrepairs : run'.repairs = run.repairs + 1 := congrArg Counts.repairs hcounts
      have hraises : run'.raises = run.raises := congrArg Counts.raises hcounts
      -- Nothing that the limit depends on has changed.
      have hsame : run'.limit options = run.limit options := by
        rw [Run.limit_eq, Run.limit_eq, hraises, howner]
        rfl
      unfold FollowedUp
      rw [hattempts, hsame, hrepairs, hraises, htried]
      constructor
      · intro hfollowed _
        exact (hfollowed asked hsent (by omega)).1
      · intro hfits candidateId hasked _
        obtain rfl := append_singleton_inj (hsent.symm.trans hasked)
        exact ⟨hfits rfl, Finset.notMem_erase asked _⟩

/-! ## Whole runs -/

/-- In every run over HTTP each recovery is followed by another attempt. In a run over WebSockets each is
if and only if no item-id repair comes after the last attempt that the limit permits. -/
theorem repaired_requests_sent (options : RetryOptions) (context : RequestContext) :
    (∀ rounds states n, RunsThrough (httpNext options context) rounds states n →
      ∀ i < n, FollowedUp options (states i) (states (i + 1))) ∧
    ∀ rounds states n, RunsThrough (connectNext options context) rounds states n →
      ((∀ i < n, FollowedUp options (states i) (states (i + 1))) ↔
        ∀ i < n, RepairFits options context (states i) (rounds i)) := by
  constructor
  · intro rounds states n hruns i hi
    exact httpNext_followedUp (hruns.2 i hi)
  · intro rounds states n hruns
    exact forall₂_congr fun i hi => connectNext_followedUp_iff (hruns.2 i hi)

/-! The single source again, over WebSockets. -/

def strictConnectRound (n : Nat) : ConnectRound where
  scheduler := singleSource
  nowMs := n
  route := some { wireApi := .responses, passthrough := true, defaultTier := .standard }
  handshake :=
    if n = 0 then
      .opened (some {
        status := 400
        failure := ⟨400, "upstream_invalid_request"⟩
        body := { requiresFcPrefix := true } })
    else .opened none

def strictConnectStates (options : RetryOptions) : Nat → Run
  | 0 => { request := strictContext.request, attempt := 0 }
  | n + 1 =>
    let run := strictConnectStates options n
    (connectNext options strictContext run (strictConnectRound n)).getD run

theorem strictConnectStates_runs
    (h : (connectNext options strictContext (strictConnectStates options 0) (strictConnectRound 0)).isSome) :
    RunsThrough (connectNext options strictContext) strictConnectRound (strictConnectStates options) 1 := by
  refine ⟨⟨_, _, rfl⟩, fun i hi => ?_⟩
  obtain rfl := Nat.lt_one_iff.mp hi
  obtain ⟨next, hnext⟩ := Option.isSome_iff_exists.mp h
  show connectNext options strictContext (strictConnectStates options 0) (strictConnectRound 0) =
    some ((connectNext options strictContext (strictConnectStates options 0) (strictConnectRound 0)).getD _)
  rw [hnext]
  rfl

/-- With one attempt the repaired request is not sent: the client gets no answer, and not even the failure
that the request was repaired for. -/
theorem repaired_request_dropped :
    (¬ ∀ options context rounds states n, RunsThrough (connectNext options context) rounds states n →
      ∀ i < n, FollowedUp options (states i) (states (i + 1))) ∧
    (connectUpstream ⟨1, by decide⟩ strictConnectRound 9 0 strictContext).map (·.result) =
      some (.failed .unavailable) := by
  refine ⟨fun h => ?_, by decide +kernel⟩
  have hruns := @strictConnectStates_runs ⟨1, by decide⟩ (by decide +kernel)
  have hfollowed := h _ _ _ _ _ hruns 0 Nat.one_pos "a" (by decide +kernel) (by decide +kernel)
  exact absurd hfollowed.1 (by decide +kernel)

/-- With two attempts it is sent. -/
theorem repaired_requests_sent_strict :
    ∀ i < 1, FollowedUp ⟨2, by decide⟩ (strictConnectStates ⟨2, by decide⟩ i)
      (strictConnectStates ⟨2, by decide⟩ (i + 1)) := by
  have hruns := @strictConnectStates_runs ⟨2, by decide⟩ (by decide +kernel)
  refine ((repaired_requests_sent ⟨2, by decide⟩ strictContext).2 _ _ _ hruns).mpr fun i hi => ?_
  obtain rfl := Nat.lt_one_iff.mp hi
  exact fun _ => by decide +kernel

/-- Over HTTP one attempt is enough. -/
example : (executeRequest ⟨1, by decide⟩ strictRound 9 0 strictContext).map (·.reply) = some .completed := by
  decide +kernel

end Zenith.Gateway
