import Mathlib
import Zenith.Automations.QuotaWake
import Zenith.Lib.Json
import Zenith.Lib.Runs

/-!
# Weekly reset credits

`jobs/weekly_reset.rs`. Refresh workers that see a weekly window reach zero redeem one reset credit, each under
the lock of the account and unless the mark of the transition is stored. The mark is written after the provider
has replied, and every request has an id of its own. So a redemption whose reply is lost, whose mark cannot be
written, or after which the process stops is not known to the next worker, which redeems another credit.
`credit_redeemed_once` says that this is the only way.

The provider redeems a credit for each request id once. Errors before the request are steps that end the worker.
-/

namespace Zenith.Server

open Zenith.Accounts Zenith.Automations Zenith.Quota Zenith.Runs

/-! ## The function -/

mutual

def findAvailableResetCredits : Json → Option Nat
  | .object fields =>
    match (["available_count", "availableCount", "count"].findSome? fun key => (Json.Fields.get fields key).bind Json.asU64) with
    | some number => if number < 2 ^ 32 then some number else none
    | none => findInFields fields
  | .array items => findInItems items
  | _ => none

def findInFields : List (String × Json) → Option Nat
  | [] => none
  | (_, value) :: fields => (findAvailableResetCredits value).or (findInFields fields)

def findInItems : List Json → Option Nat
  | [] => none
  | value :: items => (findAvailableResetCredits value).or (findInItems items)

end

/-- The reply to the request for the credits. `body` is the JSON of the body, if it is JSON. -/
inductive CreditsReply
  | failed
  | unsuccessful
  | tooLarge
  | body (value : Option Json)

def CreditsReply.available : CreditsReply → Nat
  | .body value => (value.bind findAvailableResetCredits).getD 0
  | _ => 0

/-- The reply to the request that redeems a credit. A lost one may have been `processed`. -/
inductive ConsumeReply
  | success
  | unsuccessful
  | lost (processed : Bool)
deriving DecidableEq, Repr

def ConsumeReply.processed : ConsumeReply → Bool
  | .success => true
  | .unsuccessful => false
  | .lost processed => processed

/-- The fingerprint of the transition to act on, where the account has credits and a weekly task. -/
def resetFingerprint (account : AccountRecord) (tasks : List WakeTask) (transitions : List QuotaTransition) :
    Option String :=
  if account.quota.resetCreditsAvailable.getD 0 = 0 then none
  else if !tasks.any fun task => task.enabled && task.trigger = .weekly && task.accountSelector.matches account then none
  else (transitions.find? fun transition => transition.windowKind = .secondary).map (·.fingerprint)

def markKey (accountId fingerprint : String) : String := "weekly_reset:" ++ accountId ++ ":" ++ fingerprint

/-! ## Workers -/

/-- How far a worker has come: it waits for the lock; it has the lock; it has found the mark missing again; it has
found that there are credits; its request has succeeded. -/
inductive ResetPhase
  | waiting
  | locked
  | unmarked
  | ready
  | succeeded
deriving DecidableEq, Repr

structure ResetWorker where
  accountId : String
  fingerprint : String
  phase : ResetPhase
deriving DecidableEq, Repr

structure Redemption where
  requestId : Nat
  accountId : String
  fingerprint : String
deriving DecidableEq, Repr

/-- The stored marks, the workers by number, the request ids drawn so far, and what the provider has redeemed.
`left` are the redemptions that a lost reply, a failed write of the mark or the end of the process left unmarked. -/
structure ResetSystem where
  marks : List String
  workers : List (Option ResetWorker)
  drawn : Nat
  redeemed : List Redemption
  left : List (String × String)
deriving DecidableEq, Repr

def ResetSystem.start (marks : List String) : ResetSystem :=
  { marks, workers := [], drawn := 0, redeemed := [], left := [] }

inductive ResetStep
  | call (account : AccountRecord) (tasks : List WakeTask) (transitions : List QuotaTransition)
  | lock (worker : Nat)
  | recheck (worker : Nat)
  | prepare (worker : Nat) (reply : CreditsReply)
  | consume (worker : Nat) (reply : ConsumeReply)
  | mark (worker : Nat) (written : Bool)
  /-- A read, the authorization or a client fails. -/
  | giveUp (worker : Nat)
  | crash

namespace ResetSystem

variable (s : ResetSystem)

def worker? (i : Nat) : Option ResetWorker := (s.workers[i]?).join

def setWorker (i : Nat) (worker : Option ResetWorker) : ResetSystem := { s with workers := s.workers.set i worker }

/-- `quota_reset_lock` of the account is taken. -/
def held (accountId : String) : Bool :=
  s.workers.any fun worker => worker.any fun worker => worker.accountId = accountId && worker.phase ≠ .waiting

/-- The provider takes two requests with the same id as one. -/
def redeem (redemption : Redemption) : ResetSystem :=
  if s.redeemed.any fun earlier => earlier.requestId = redemption.requestId then s
  else { s with redeemed := s.redeemed ++ [redemption] }

def leave (worker : ResetWorker) : ResetSystem :=
  { s with left := (worker.accountId, worker.fingerprint) :: s.left }

/-- The credits redeemed for an account and a transition. -/
def credits (accountId fingerprint : String) : Nat :=
  s.redeemed.countP fun redemption => redemption.accountId = accountId && redemption.fingerprint = fingerprint

/-- One step. A step that its worker cannot take changes nothing. -/
def step : ResetStep → ResetSystem
  | .call account tasks transitions =>
    match resetFingerprint account tasks transitions with
    | none => s
    | some fingerprint =>
      if markKey account.id fingerprint ∈ s.marks then s
      else { s with workers := s.workers ++ [some ⟨account.id, fingerprint, .waiting⟩] }
  | .lock i =>
    match s.worker? i with
    | none => s
    | some worker =>
      if worker.phase = .waiting && !s.held worker.accountId then s.setWorker i (some { worker with phase := .locked }) else s
  | .recheck i =>
    match s.worker? i with
    | none => s
    | some worker =>
      if worker.phase = .locked then
        if markKey worker.accountId worker.fingerprint ∈ s.marks then s.setWorker i none
        else s.setWorker i (some { worker with phase := .unmarked })
      else s
  | .prepare i reply =>
    match s.worker? i with
    | none => s
    | some worker =>
      if worker.phase = .unmarked then
        if reply.available = 0 then s.setWorker i none else s.setWorker i (some { worker with phase := .ready })
      else s
  | .consume i reply =>
    match s.worker? i with
    | none => s
    | some worker =>
      if worker.phase = .ready then
        let sent := { s with drawn := s.drawn + 1 }
        let redeemed := sent.redeem ⟨s.drawn, worker.accountId, worker.fingerprint⟩
        match reply with
        | .success => redeemed.setWorker i (some { worker with phase := .succeeded })
        | .lost true => (redeemed.leave worker).setWorker i none
        | .lost false => sent.setWorker i none
        | .unsuccessful => sent.setWorker i none
      else s
  | .mark i written =>
    match s.worker? i with
    | none => s
    | some worker =>
      if worker.phase = .succeeded then
        if written then
          { s with marks := markKey worker.accountId worker.fingerprint :: s.marks }.setWorker i none
        else (s.leave worker).setWorker i none
      else s
  | .giveUp i =>
    match s.worker? i with
    | none => s
    | some worker => if worker.phase = .locked || worker.phase = .unmarked then s.setWorker i none else s
  | .crash =>
    { s with
      workers := []
      left := (s.workers.filterMap fun worker => worker.bind fun worker =>
        if worker.phase = .succeeded then some (worker.accountId, worker.fingerprint) else none) ++ s.left }

/-! ## What a step keeps -/

variable {s : ResetSystem} {i : Nat} {worker : ResetWorker}

theorem worker?_setWorker (h : s.worker? i = some worker)
    (worker' : Option ResetWorker) (j : Nat) : (s.setWorker i worker').worker? j = if j = i then worker' else s.worker? j := by
  have hlength : i < s.workers.length := by
    by_contra hge
    unfold worker? at h
    rw [List.getElem?_eq_none (Nat.le_of_not_lt hge)] at h
    exact nomatch h
  unfold worker? setWorker
  dsimp only
  by_cases hj : j = i
  · subst hj
    rw [List.getElem?_set_self hlength, if_pos rfl, Option.join_some]
  · rw [List.getElem?_set_ne (Ne.symm hj), if_neg hj]

theorem held_of_worker? (h : s.worker? i = some worker)
    (hphase : worker.phase ≠ .waiting) : s.held worker.accountId = true := by
  refine List.any_eq_true.mpr ⟨some worker, ?_, ?_⟩
  · exact List.mem_of_getElem? (Option.join_eq_some_iff.mp h)
  · rw [Option.any_some, decide_eq_true rfl, decide_eq_true hphase]
    rfl

/-- The workers of an account exclude each other from the lock on; request ids are new; a redemption is marked, or
left unmarked, or its worker is about to mark it; and a worker that is about to redeem knows of no other. -/
structure Sound (s : ResetSystem) : Prop where
  exclusive : ∀ {i j worker worker'}, s.worker? i = some worker → s.worker? j = some worker' → worker.phase ≠ .waiting →
    worker'.phase ≠ .waiting → worker.accountId = worker'.accountId → i = j
  fresh : ∀ redemption ∈ s.redeemed, redemption.requestId < s.drawn
  known : ∀ {accountId fingerprint}, 0 < s.credits accountId fingerprint → (accountId, fingerprint) ∈ s.left ∨
    markKey accountId fingerprint ∈ s.marks ∨ ∃ i, s.worker? i = some ⟨accountId, fingerprint, .succeeded⟩
  careful : ∀ {i worker}, s.worker? i = some worker → worker.phase = .unmarked ∨ worker.phase = .ready →
    0 < s.credits worker.accountId worker.fingerprint → (worker.accountId, worker.fingerprint) ∈ s.left
  redeemed : ∀ {i worker}, s.worker? i = some worker → worker.phase = .succeeded →
    0 < s.credits worker.accountId worker.fingerprint
  left : ∀ {accountId fingerprint}, (accountId, fingerprint) ∈ s.left → 0 < s.credits accountId fingerprint

theorem sound_start (marks : List String) : Sound (start marks) where
  exclusive h := nomatch h
  fresh _ h := nomatch h
  known h := nomatch h
  careful h := nomatch h
  redeemed h := nomatch h
  left h := nomatch h

/-- What is asked of the next worker of a number, where nothing else changes. -/
structure Follows (s : ResetSystem) (worker worker' : ResetWorker) : Prop where
  accountId : worker'.accountId = worker.accountId
  fingerprint : worker'.fingerprint = worker.fingerprint
  lock : worker.phase = .waiting → s.held worker.accountId = false
  open_ : worker'.phase ≠ .succeeded
  careful : worker'.phase = .unmarked ∨ worker'.phase = .ready →
    0 < s.credits worker.accountId worker.fingerprint → (worker.accountId, worker.fingerprint) ∈ s.left

variable {next : Option ResetWorker}

theorem exclusive_setWorker (h : Sound s) (hworker : s.worker? i = some worker)
    (hnext : ∀ worker', next = some worker' → worker'.accountId = worker.accountId ∧
      (worker.phase = .waiting → s.held worker.accountId = false)) {j k : Nat} {first second : ResetWorker}
    (hfirst : (s.setWorker i next).worker? j = some first) (hsecond : (s.setWorker i next).worker? k = some second)
    (hfirst' : first.phase ≠ .waiting) (hsecond' : second.phase ≠ .waiting) (heq : first.accountId = second.accountId) : j = k := by
  have hother : ∀ {m : Nat} {other worker' : ResetWorker}, next = some worker' → s.worker? m = some other →
      other.phase ≠ .waiting → other.accountId = worker'.accountId → m = i := by
    intro m other worker' hworker' hm hother heq
    obtain ⟨haccount, hlock⟩ := hnext worker' hworker'
    have hheld := held_of_worker? hm hother
    rw [heq, haccount] at hheld
    refine h.exclusive hm hworker hother (fun hwaiting => ?_) (heq.trans haccount)
    rw [hlock hwaiting] at hheld
    exact nomatch hheld
  rw [worker?_setWorker hworker] at hfirst hsecond
  split at hfirst
  case isTrue hj =>
    split at hsecond
    case isTrue hk => rw [hj, hk]
    case isFalse => rw [hj, hother hfirst hsecond hsecond' heq.symm]
  case isFalse =>
    split at hsecond
    case isTrue hk => rw [hk, hother hsecond hfirst hfirst' heq]
    case isFalse => exact h.exclusive hfirst hsecond hfirst' hsecond' heq

/-- A worker that has not redeemed moves on or ends. -/
theorem sound_setWorker (h : Sound s) (hworker : s.worker? i = some worker)
    (hphase : worker.phase ≠ .succeeded)
    (hnext : ∀ worker', next = some worker' → Follows s worker worker') : Sound (s.setWorker i next) where
  exclusive := exclusive_setWorker h hworker fun worker' hworker' => ⟨(hnext worker' hworker').accountId, (hnext worker' hworker').lock⟩
  fresh := h.fresh
  known hcredits := by
    refine (h.known hcredits).imp_right (Or.imp_right ?_)
    rintro ⟨j, hj⟩
    refine ⟨j, ?_⟩
    rw [worker?_setWorker hworker, if_neg]
    · exact hj
    · rintro rfl
      rw [hworker] at hj
      obtain rfl := Option.some.inj hj
      exact hphase rfl
  careful {j worker'} hworker' := by
    rw [worker?_setWorker hworker] at hworker'
    split at hworker'
    case isTrue =>
      have hfollows := hnext worker' hworker'
      rw [hfollows.accountId, hfollows.fingerprint]
      exact hfollows.careful
    case isFalse => exact h.careful hworker'
  redeemed {j worker'} hworker' hsucceeded := by
    rw [worker?_setWorker hworker] at hworker'
    split at hworker'
    case isTrue => exact absurd hsucceeded (hnext worker' hworker').open_
    case isFalse => exact h.redeemed hworker' hsucceeded
  left := h.left

theorem sound_call (h : Sound s) (accountId fingerprint : String) :
    Sound { s with workers := s.workers ++ [some ⟨accountId, fingerprint, .waiting⟩] } := by
  have hold : ∀ {i worker}, ({ s with workers := s.workers ++ [some ⟨accountId, fingerprint, .waiting⟩] } : ResetSystem).worker? i =
      some worker → worker.phase ≠ .waiting → s.worker? i = some worker := by
    intro i worker hworker hphase
    unfold worker? at hworker ⊢
    dsimp only at hworker
    rw [List.getElem?_append] at hworker
    split at hworker
    case isTrue => exact hworker
    case isFalse hge =>
      have hmem := List.mem_of_getElem? (Option.join_eq_some_iff.mp hworker)
      obtain rfl := Option.some.inj (List.mem_singleton.mp hmem)
      exact absurd rfl hphase
  have hnew : ∀ {i worker}, s.worker? i = some worker →
      ({ s with workers := s.workers ++ [some ⟨accountId, fingerprint, .waiting⟩] } : ResetSystem).worker? i = some worker := by
    intro i worker hworker
    unfold worker? at hworker ⊢
    have hi := Option.join_eq_some_iff.mp hworker
    dsimp only
    rw [List.getElem?_append_left (List.getElem?_eq_some_iff.mp hi).1, hi]
    rfl
  refine ⟨fun hi hj hi' hj' => h.exclusive (hold hi hi') (hold hj hj') hi' hj', h.fresh, fun hcredits => ?_, fun hi hphase => ?_,
    fun hi hphase => h.redeemed (hold hi ?_) hphase, h.left⟩
  · refine (h.known hcredits).imp_right (Or.imp_right ?_)
    rintro ⟨i, hi⟩
    exact ⟨i, hnew hi⟩
  · refine h.careful (hold hi ?_) hphase
    rcases hphase with hphase | hphase <;> rw [hphase] <;> exact nofun
  · rw [hphase]
    exact nofun

theorem sound_drawn (h : Sound s) : Sound { s with drawn := s.drawn + 1 } :=
  ⟨h.exclusive, fun redemption hmem => Nat.lt_succ_of_lt (h.fresh redemption hmem), h.known, h.careful, h.redeemed, h.left⟩

theorem redeem_drawn (h : Sound s) (accountId fingerprint : String) :
    ({ s with drawn := s.drawn + 1 } : ResetSystem).redeem ⟨s.drawn, accountId, fingerprint⟩ =
      { s with drawn := s.drawn + 1, redeemed := s.redeemed ++ [⟨s.drawn, accountId, fingerprint⟩] } := by
  refine if_neg fun hany => ?_
  obtain ⟨earlier, hmem, heq⟩ := List.any_eq_true.mp hany
  exact absurd (h.fresh earlier hmem) (Nat.not_lt.mpr (Nat.le_of_eq (of_decide_eq_true heq).symm))

theorem credits_append (redeemed : List Redemption) (s : ResetSystem) (requestId : Nat) (accountId fingerprint : String)
    {accountId' fingerprint' : String} :
    ({ s with redeemed := redeemed ++ [⟨requestId, accountId, fingerprint⟩] } : ResetSystem).credits accountId' fingerprint' =
      ({ s with redeemed } : ResetSystem).credits accountId' fingerprint' +
        if accountId = accountId' ∧ fingerprint = fingerprint' then 1 else 0 := by
  unfold credits
  dsimp only
  rw [List.countP_append, List.countP_singleton]
  refine congrArg _ (ite_congr ?_ (fun _ => rfl) fun _ => rfl)
  rw [Bool.and_eq_true_iff, decide_eq_true_iff, decide_eq_true_iff]

variable {left : List (String × String)}

/-- The provider redeems a credit for a worker, which is about to mark it or has lost the reply. -/
theorem sound_redeemed (h : Sound s) (hworker : s.worker? i = some worker)
    (hphase : worker.phase = .ready)
    (hnext : (next = some ⟨worker.accountId, worker.fingerprint, .succeeded⟩ ∧ left = s.left) ∨
      (next = none ∧ left = (worker.accountId, worker.fingerprint) :: s.left)) :
    Sound { s with
      workers := s.workers.set i next
      drawn := s.drawn + 1
      redeemed := s.redeemed ++ [⟨s.drawn, worker.accountId, worker.fingerprint⟩]
      left } := by
  have hset := worker?_setWorker hworker next
  have hcredits : ∀ {accountId fingerprint}, 0 < s.credits accountId fingerprint →
      0 < ({ s with redeemed := s.redeemed ++ [⟨s.drawn, worker.accountId, worker.fingerprint⟩] } : ResetSystem).credits
        accountId fingerprint := by
    intro accountId fingerprint hpos
    rw [credits_append]
    exact Nat.add_pos_left hpos _
  have hown : 0 < ({ s with redeemed := s.redeemed ++ [⟨s.drawn, worker.accountId, worker.fingerprint⟩] } : ResetSystem).credits
      worker.accountId worker.fingerprint := by
    rw [credits_append, if_pos ⟨rfl, rfl⟩]
    exact Nat.succ_pos _
  have hleft : ∀ {pair}, pair ∈ s.left → pair ∈ left := by
    intro pair hmem
    rcases hnext with ⟨-, rfl⟩ | ⟨-, rfl⟩
    · exact hmem
    · exact List.mem_cons_of_mem _ hmem
  constructor
  case exclusive =>
    intro j k first second hfirst hsecond
    refine exclusive_setWorker h hworker (fun worker' hworker' => ?_) hfirst hsecond
    rcases hnext with ⟨rfl, -⟩ | ⟨rfl, -⟩
    · obtain rfl := Option.some.inj hworker'
      refine ⟨rfl, fun hwaiting => ?_⟩
      rw [hphase] at hwaiting
      exact nomatch hwaiting
    · exact nomatch hworker'
  case fresh =>
    intro redemption hmem
    rcases List.mem_append.mp hmem with hold | hnew
    · exact Nat.lt_succ_of_lt (h.fresh redemption hold)
    · rw [List.mem_singleton.mp hnew]
      exact Nat.lt_succ_self _
  case known =>
    intro accountId fingerprint hpos
    by_cases hsame : worker.accountId = accountId ∧ worker.fingerprint = fingerprint
    · obtain ⟨rfl, rfl⟩ := hsame
      rcases hnext with ⟨rfl, -⟩ | ⟨-, rfl⟩
      · exact .inr (.inr ⟨i, (hset i).trans (if_pos rfl)⟩)
      · exact .inl List.mem_cons_self
    · have hbefore : 0 < s.credits accountId fingerprint := by
        have hpos' := (credits_append s.redeemed s s.drawn worker.accountId worker.fingerprint).symm.trans_gt hpos
        rw [if_neg hsame] at hpos'
        exact hpos'
      refine (h.known hbefore).imp hleft (Or.imp_right ?_)
      rintro ⟨j, hj⟩
      refine ⟨j, (hset j).trans ?_⟩
      rw [if_neg]
      · exact hj
      · rintro rfl
        rw [hworker] at hj
        obtain rfl := Option.some.inj hj
        exact nomatch hphase
  case careful =>
    intro j worker' hworker' hphase' hpos
    have hj := (hset j).symm.trans hworker'
    split at hj
    case isTrue =>
      rcases hnext with ⟨rfl, -⟩ | ⟨rfl, -⟩
      · obtain rfl := Option.some.inj hj
        rcases hphase' with hphase' | hphase' <;> exact nomatch hphase'
      · exact nomatch hj
    case isFalse hne =>
      have hother : ¬(worker.accountId = worker'.accountId ∧ worker.fingerprint = worker'.fingerprint) := by
        rintro ⟨haccount, -⟩
        refine hne (h.exclusive hj hworker ?_ ?_ haccount.symm)
        · rcases hphase' with hphase' | hphase' <;> rw [hphase'] <;> exact nofun
        · rw [hphase]
          exact nofun
      refine hleft (h.careful hj hphase' ?_)
      have hpos' := (credits_append s.redeemed s s.drawn worker.accountId worker.fingerprint).symm.trans_gt hpos
      rw [if_neg hother] at hpos'
      exact hpos'
  case redeemed =>
    intro j worker' hworker' hsucceeded
    have hj := (hset j).symm.trans hworker'
    split at hj
    case isTrue =>
      rcases hnext with ⟨rfl, -⟩ | ⟨rfl, -⟩
      · obtain rfl := Option.some.inj hj
        exact hown
      · exact nomatch hj
    case isFalse => exact hcredits (h.redeemed hj hsucceeded)
  case left =>
    intro accountId fingerprint hmem
    rcases hnext with ⟨-, rfl⟩ | ⟨-, rfl⟩
    · exact hcredits (h.left hmem)
    · rcases List.mem_cons.mp hmem with heq | hmem
      · obtain ⟨rfl, rfl⟩ := Prod.mk.inj heq
        exact hown
      · exact hcredits (h.left hmem)

/-- A worker whose request has succeeded writes the mark, or leaves it. -/
theorem sound_marked (h : Sound s) (hworker : s.worker? i = some worker)
    (hphase : worker.phase = .succeeded) {marks : List String}
    (hnext : (marks = markKey worker.accountId worker.fingerprint :: s.marks ∧ left = s.left) ∨
      (marks = s.marks ∧ left = (worker.accountId, worker.fingerprint) :: s.left)) :
    Sound { s with marks, workers := s.workers.set i none, left } := by
  have hset := worker?_setWorker hworker none
  have hold : ∀ {j worker'}, (s.setWorker i none).worker? j = some worker' → s.worker? j = some worker' := by
    intro j worker' hj
    rw [hset] at hj
    split at hj
    case isTrue => exact nomatch hj
    case isFalse => exact hj
  have hleft : ∀ {pair}, pair ∈ s.left → pair ∈ left := by
    intro pair hmem
    rcases hnext with ⟨-, rfl⟩ | ⟨-, rfl⟩
    · exact hmem
    · exact List.mem_cons_of_mem _ hmem
  have hmarks : ∀ {key}, key ∈ s.marks → key ∈ marks := by
    intro key hmem
    rcases hnext with ⟨rfl, -⟩ | ⟨rfl, -⟩
    · exact List.mem_cons_of_mem _ hmem
    · exact hmem
  constructor
  case exclusive =>
    intro j k first second hfirst hsecond
    exact h.exclusive (hold hfirst) (hold hsecond)
  case fresh => exact h.fresh
  case known =>
    intro accountId fingerprint hpos
    rcases h.known hpos with hin | hin | ⟨j, hj⟩
    · exact .inl (hleft hin)
    · exact .inr (.inl (hmarks hin))
    · by_cases hji : j = i
      · subst hji
        rw [hworker] at hj
        obtain rfl := Option.some.inj hj
        rcases hnext with ⟨rfl, -⟩ | ⟨-, rfl⟩
        · exact .inr (.inl List.mem_cons_self)
        · exact .inl List.mem_cons_self
      · exact .inr (.inr ⟨j, (hset j).trans ((if_neg hji).trans hj)⟩)
  case careful =>
    intro j worker' hworker' hphase' hpos
    exact hleft (h.careful (hold hworker') hphase' hpos)
  case redeemed =>
    intro j worker' hworker' hsucceeded
    exact h.redeemed (hold hworker') hsucceeded
  case left =>
    intro accountId fingerprint hmem
    rcases hnext with ⟨-, rfl⟩ | ⟨-, rfl⟩
    · exact h.left hmem
    · rcases List.mem_cons.mp hmem with heq | hmem
      · obtain ⟨rfl, rfl⟩ := Prod.mk.inj heq
        exact h.redeemed hworker hphase
      · exact h.left hmem

theorem mem_unmarked {pair : String × String} : pair ∈ (s.workers.filterMap fun worker =>
      worker.bind fun worker => if worker.phase = .succeeded then some (worker.accountId, worker.fingerprint) else none) ↔
    ∃ i, s.worker? i = some ⟨pair.1, pair.2, .succeeded⟩ := by
  constructor
  · intro hmem
    obtain ⟨worker?, hworker, hpair⟩ := List.mem_filterMap.mp hmem
    obtain ⟨worker, rfl, hif⟩ := Option.bind_eq_some_iff.mp hpair
    split at hif
    case isFalse => exact nomatch hif
    case isTrue hphase =>
      obtain rfl := Option.some.inj hif
      obtain ⟨i, hi⟩ := List.mem_iff_getElem?.mp hworker
      refine ⟨i, Option.join_eq_some_iff.mpr ?_⟩
      rw [hi, ← hphase]
  · rintro ⟨i, hi⟩
    refine List.mem_filterMap.mpr ⟨_, List.mem_of_getElem? (Option.join_eq_some_iff.mp hi), ?_⟩
    rw [Option.bind_some, if_pos rfl]

theorem sound_crash (h : Sound s) : Sound (s.step .crash) := by
  have hnone : ∀ {i worker}, (s.step .crash).worker? i = some worker → False := fun hi => nomatch hi
  constructor
  case exclusive => exact fun hi => (hnone hi).elim
  case fresh => exact h.fresh
  case known =>
    intro accountId fingerprint hpos
    rcases h.known hpos with hin | hin | hworker
    · exact .inl (List.mem_append_right _ hin)
    · exact .inr (.inl hin)
    · exact .inl (List.mem_append_left _ (mem_unmarked.mpr hworker))
  case careful => exact fun hi => (hnone hi).elim
  case redeemed => exact fun hi => (hnone hi).elim
  case left =>
    intro accountId fingerprint hmem
    rcases List.mem_append.mp hmem with hlost | hold
    · obtain ⟨i, hi⟩ := mem_unmarked.mp hlost
      exact h.redeemed hi rfl
    · exact h.left hold

/-- The redemption that the step makes, by account and transition. -/
def redeems (s : ResetSystem) : ResetStep → Option (String × String)
  | .consume i reply =>
    match s.worker? i with
    | none => none
    | some worker =>
      if worker.phase = .ready && reply.processed then some (worker.accountId, worker.fingerprint) else none
  | _ => none

/-- Every step keeps the invariant, and adds the redemption it makes. -/
theorem sound_step (h : Sound s) (op : ResetStep) : Sound (s.step op) ∧
    ∀ accountId fingerprint, (s.step op).credits accountId fingerprint =
      s.credits accountId fingerprint + if s.redeems op = some (accountId, fingerprint) then 1 else 0 := by
  cases op with
  | call account tasks transitions =>
    refine ⟨?_, ?_⟩
    · unfold step
      dsimp only
      split
      case h_1 => exact h
      case h_2 fingerprint _ =>
        split
        case isTrue => exact h
        case isFalse => exact sound_call h account.id fingerprint
    · intro accountId fingerprint
      unfold step
      dsimp only
      split
      case h_1 => rfl
      case h_2 =>
        split
        case isTrue => rfl
        case isFalse => rfl
  | lock i =>
    unfold step
    dsimp only
    split
    case h_1 => exact ⟨h, fun _ _ => rfl⟩
    case h_2 worker hworker =>
      split
      case isFalse => exact ⟨h, fun _ _ => rfl⟩
      case isTrue hfree =>
        obtain ⟨hwaiting, hfree⟩ := Bool.and_eq_true_iff.mp hfree
        have hwaiting := of_decide_eq_true hwaiting
        refine ⟨sound_setWorker h hworker (by rw [hwaiting]; exact nofun) fun worker' hworker' => ?_, fun _ _ => rfl⟩
        obtain rfl := Option.some.inj hworker'
        refine ⟨rfl, rfl, fun _ => Bool.not_eq_eq_eq_not.mp hfree, nofun, fun hphase => ?_⟩
        rcases hphase with hphase | hphase <;> exact nomatch hphase
  | recheck i =>
    unfold step
    dsimp only
    split
    case h_1 => exact ⟨h, fun _ _ => rfl⟩
    case h_2 worker hworker =>
      split
      case isFalse => exact ⟨h, fun _ _ => rfl⟩
      case isTrue hlocked =>
        have hphase : worker.phase ≠ .succeeded := by rw [hlocked]; exact nofun
        split
        case isTrue => exact ⟨sound_setWorker h hworker hphase fun worker' hworker' => (nomatch hworker'), fun _ _ => rfl⟩
        case isFalse hunmarked =>
          refine ⟨sound_setWorker h hworker hphase fun worker' hworker' => ?_, fun _ _ => rfl⟩
          obtain rfl := Option.some.inj hworker'
          refine ⟨rfl, rfl, fun hwaiting => ?_, nofun, fun _ hpos => ?_⟩
          · rw [hlocked] at hwaiting
            exact nomatch hwaiting
          · rcases h.known hpos with hin | hin | ⟨j, hj⟩
            · exact hin
            · exact absurd hin hunmarked
            · obtain rfl := h.exclusive hworker hj (by rw [hlocked]; exact nofun) nofun rfl
              rw [hworker] at hj
              have hsucceeded := congrArg ResetWorker.phase (Option.some.inj hj)
              exact absurd hsucceeded hphase
  | prepare i reply =>
    unfold step
    dsimp only
    split
    case h_1 => exact ⟨h, fun _ _ => rfl⟩
    case h_2 worker hworker =>
      split
      case isFalse => exact ⟨h, fun _ _ => rfl⟩
      case isTrue hunmarked =>
        have hphase : worker.phase ≠ .succeeded := by rw [hunmarked]; exact nofun
        split
        case isTrue => exact ⟨sound_setWorker h hworker hphase fun worker' hworker' => (nomatch hworker'), fun _ _ => rfl⟩
        case isFalse =>
          refine ⟨sound_setWorker h hworker hphase fun worker' hworker' => ?_, fun _ _ => rfl⟩
          obtain rfl := Option.some.inj hworker'
          refine ⟨rfl, rfl, fun hwaiting => ?_, nofun, fun _ => h.careful hworker (.inl hunmarked)⟩
          rw [hunmarked] at hwaiting
          exact nomatch hwaiting
  | consume i reply =>
    cases hworker : s.worker? i with
    | none =>
      simp only [step, redeems, hworker]
      exact ⟨h, fun _ _ => rfl⟩
    | some worker =>
      by_cases hready : worker.phase = .ready
      case neg =>
        simp only [step, redeems, hworker, if_neg hready, decide_eq_false hready]
        exact ⟨h, fun _ _ => rfl⟩
      case pos =>
        have hphase : worker.phase ≠ .succeeded := by rw [hready]; exact nofun
        have hend : Sound (({ s with drawn := s.drawn + 1 } : ResetSystem).setWorker i none) :=
          sound_setWorker (sound_drawn h) hworker hphase fun worker' hworker' => nomatch hworker'
        have hcount : ∀ accountId fingerprint, (if (some (worker.accountId, worker.fingerprint) : Option (String × String)) =
            some (accountId, fingerprint) then 1 else 0) =
            if worker.accountId = accountId ∧ worker.fingerprint = fingerprint then 1 else 0 := by
          intro accountId fingerprint
          refine ite_congr ?_ (fun _ => rfl) fun _ => rfl
          rw [Option.some.injEq, Prod.mk.injEq]
        simp only [step, redeems, hworker, if_pos hready, decide_eq_true hready, redeem_drawn h]
        cases reply with
        | success =>
          refine ⟨sound_redeemed h hworker hready (.inl ⟨rfl, rfl⟩), fun accountId fingerprint => ?_⟩
          exact (credits_append s.redeemed s s.drawn worker.accountId worker.fingerprint).trans
            (congrArg _ (hcount accountId fingerprint).symm)
        | unsuccessful => exact ⟨hend, fun _ _ => rfl⟩
        | lost processed =>
          cases processed with
          | false => exact ⟨hend, fun _ _ => rfl⟩
          | true =>
            refine ⟨sound_redeemed h hworker hready (.inr ⟨rfl, rfl⟩), fun accountId fingerprint => ?_⟩
            exact (credits_append s.redeemed s s.drawn worker.accountId worker.fingerprint).trans
              (congrArg _ (hcount accountId fingerprint).symm)
  | mark i written =>
    unfold step
    dsimp only
    split
    case h_1 => exact ⟨h, fun _ _ => rfl⟩
    case h_2 worker hworker =>
      split
      case isFalse => exact ⟨h, fun _ _ => rfl⟩
      case isTrue hsucceeded =>
        split
        case isTrue => exact ⟨sound_marked h hworker hsucceeded (.inl ⟨rfl, rfl⟩), fun _ _ => rfl⟩
        case isFalse => exact ⟨sound_marked h hworker hsucceeded (.inr ⟨rfl, rfl⟩), fun _ _ => rfl⟩
  | giveUp i =>
    unfold step
    dsimp only
    split
    case h_1 => exact ⟨h, fun _ _ => rfl⟩
    case h_2 worker hworker =>
      split
      case isFalse => exact ⟨h, fun _ _ => rfl⟩
      case isTrue hphase =>
        refine ⟨sound_setWorker h hworker (fun hsucceeded => ?_) fun worker' hworker' => (nomatch hworker'), fun _ _ => rfl⟩
        rw [hsucceeded] at hphase
        exact absurd hphase (by decide)
  | crash => exact ⟨sound_crash h, fun _ _ => rfl⟩

/-! ## At most one credit -/

/-- The step does not redeem a credit for a transition that an earlier redemption was left unmarked for. -/
def Unrepeated (accountId fingerprint : String) (s : ResetSystem) (op : ResetStep) : Prop :=
  s.redeems op = some (accountId, fingerprint) → (accountId, fingerprint) ∉ s.left

variable {accountId fingerprint : String}

/-- A worker that redeems knows of no earlier redemption that was marked. -/
theorem left_of_redeems (h : Sound s) {op : ResetStep}
    (hredeems : s.redeems op = some (accountId, fingerprint)) (hpos : 0 < s.credits accountId fingerprint) :
    (accountId, fingerprint) ∈ s.left := by
  cases op with
  | consume i reply =>
    unfold redeems at hredeems
    dsimp only at hredeems
    split at hredeems
    case h_1 => exact nomatch hredeems
    case h_2 worker hworker =>
      split at hredeems
      case isFalse => exact nomatch hredeems
      case isTrue hready =>
        obtain ⟨rfl, rfl⟩ := Prod.mk.inj (Option.some.inj hredeems)
        exact h.careful hworker (.inr (of_decide_eq_true (Bool.and_eq_true_iff.mp hready).1)) hpos
  | _ => exact nomatch hredeems

theorem credits_step (h : Sound s) (op : ResetStep)
    (hone : s.credits accountId fingerprint ≤ 1) :
    (s.step op).credits accountId fingerprint ≤ 1 ↔ Unrepeated accountId fingerprint s op := by
  rw [(sound_step h op).2]
  unfold Unrepeated
  split
  case isFalse hnone => exact ⟨fun _ hredeems => absurd hredeems hnone, fun _ => hone⟩
  case isTrue hredeems =>
    constructor
    · intro hle _ hleft
      exact absurd hle (Nat.not_le.mpr (Nat.succ_lt_succ (h.left hleft)))
    · intro hunrepeated
      refine Nat.succ_le_succ (Nat.le_of_not_lt fun hpos => ?_)
      exact hunrepeated hredeems (left_of_redeems h hredeems hpos)

/-- In a run of the workers an account gets at most one credit for a transition exactly if none is redeemed after a
redemption that was left unmarked. -/
theorem credit_redeemed_once (marks : List String) (accountId fingerprint : String) (ops : List ResetStep) :
    (∀ before after, ops = before ++ after → (run step (start marks) before).credits accountId fingerprint ≤ 1) ↔
      StepsMeet step (Unrepeated accountId fingerprint) (start marks) ops :=
  StepsMeet.always_iff (I := Sound) (fun _ op h hone => ⟨(sound_step h op).1, credits_step h op hone⟩)
    (sound_start marks) (Nat.zero_le _) ops

end ResetSystem

/-! ## A lost reply -/

def weeklyTask : WakeTask :=
  { id := "weekly"
    name := "Weekly"
    enabled := true
    accountSelector := .allEligible
    windowKinds := {.primary}
    modelPolicy := .lightestSupported
    trigger := .weekly
    fallbackSchedule := none
    executionPolicy := .automatic
    jitterSeconds := 0
    maxAttemptsPerCycle := 1 }

def weeklyCall : ResetStep :=
  .call { id := "acct", quota := { resetCreditsAvailable := some 2 } } [weeklyTask]
    [{ windowKind := .secondary, fingerprint := "week-1", transitionedAtMs := 0 }]

def creditsBody : CreditsReply := .body (some (.object [("available_count", .number (.nat 2))]))

/-- The reply to the first request is lost after it was processed, and the next refresh tries again. -/
def lostReplyRun : List ResetStep :=
  [weeklyCall, .lock 0, .recheck 0, .prepare 0 creditsBody, .consume 0 (.lost true),
    weeklyCall, .lock 1, .recheck 1, .prepare 1 creditsBody, .consume 1 .success, .mark 1 true]

theorem credit_redeemed_twice :
    (run ResetSystem.step (ResetSystem.start []) lostReplyRun).credits "acct" "week-1" = 2 := by
  decide

end Zenith.Server
