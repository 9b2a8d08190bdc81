import Zenith.Lib.Runs
import Zenith.Quota.Queue

/-!
# What the refresh queue is for

The purpose of the quota refresh queue, without a heap: a finite map from account ids to
`pending due generation` or `inFlight generation dirty`. Claiming takes the smallest pending
entries that are due; the next due time is the least pending one.

`generations` counts the entries filed so far and is the generation of the last one, so that no
generation is used twice. `ClaimedOnce` is what a client relies on: an account that is being
refreshed is not handed out again. It holds along every run of the map (`claimedOnce_run`).
-/

namespace Zenith.Quota

open Std Zenith.Tables Zenith.Heaps Zenith.Runs

inductive AccountState
  | pending (dueAtMs generation : Nat)
  | inFlight (generation : Nat) (dirtyDueAtMs : Option Nat)
deriving DecidableEq, Repr

def AccountState.pending? (accountId : String) : AccountState → Option HeapEntry
  | .pending due generation => some ⟨due, generation, accountId⟩
  | .inFlight _ _ => none

structure RefreshMap where
  maxEntries : Nat
  generations : Nat := 0
  accounts : Table String AccountState := ∅

/-- The empty map with room for `capacity` accounts. -/
def RefreshMap.ofCapacity (capacity : Nat) : RefreshMap := { maxEntries := capacity }

/-! ## Pending entries in order -/

/-- The pending entries in the order of due time, generation and id. -/
def pendingIn (accounts : Table String AccountState) : List HeapEntry :=
  (accounts.toList.filterMap fun item => item.2.pending? item.1).insertionSort (· ≤ ·)

variable {accounts : Table String AccountState}

theorem mem_pendingIn {e : HeapEntry} :
    e ∈ pendingIn accounts ↔
      accounts[e.accountId]? = some (.pending e.dueAtMs e.generation) := by
  rw [pendingIn, List.mem_insertionSort, List.mem_filterMap]
  constructor
  · rintro ⟨⟨id, state⟩, hmem, hpending⟩
    rw [ExtTreeMap.mem_toList_iff_getElem?_eq_some] at hmem
    cases state with
    | pending due generation =>
      obtain rfl := Option.some.inj hpending
      exact hmem
    | inFlight generation dirty => cases hpending
  · intro hget
    exact ⟨(e.accountId, _), ExtTreeMap.mem_toList_iff_getElem?_eq_some.mpr hget, rfl⟩

theorem sorted_pendingIn (accounts : Table String AccountState) :
    (pendingIn accounts).Pairwise (· ≤ ·) :=
  List.pairwise_insertionSort _ _

/-- An account is pending at most once. -/
theorem nodup_ids_pendingIn (accounts : Table String AccountState) :
    ((pendingIn accounts).map HeapEntry.accountId).Nodup := by
  have hperm : (pendingIn accounts).Perm
      (accounts.toList.filterMap fun item => item.2.pending? item.1) :=
    List.perm_insertionSort _ _
  rw [(hperm.map _).nodup_iff, List.map_filterMap]
  refine List.Nodup.sublist ?_ (nodup_keys_toList accounts)
  generalize accounts.toList = items
  induction items with
  | nil => exact List.Sublist.slnil
  | cons item items ih =>
    obtain ⟨id, state⟩ := item
    cases state with
    | pending due generation => exact ih.cons_cons id
    | inFlight generation dirty => exact ih.cons id

theorem nodup_pendingIn (accounts : Table String AccountState) : (pendingIn accounts).Nodup :=
  (nodup_ids_pendingIn accounts).of_map

variable {rest : List HeapEntry}

/-- No pending entry is due before the first. -/
theorem dueAtMs_le_of_pendingIn {e x : HeapEntry}
    (h : pendingIn accounts = e :: rest) (hx : x ∈ e :: rest) :
    e.dueAtMs ≤ x.dueAtMs := by
  have hsorted : (e :: rest).Pairwise (· ≤ ·) := h ▸ sorted_pendingIn accounts
  rcases List.mem_cons.mp hx with rfl | hrest
  · exact Nat.le_refl _
  · exact HeapEntry.dueAtMs_le (List.rel_of_pairwise_cons hsorted hrest)

/-- Taking the first pending entry in flight leaves the others pending. -/
theorem pendingIn_claim {e : HeapEntry}
    (h : pendingIn accounts = e :: rest) :
    pendingIn (accounts.insert e.accountId (.inFlight e.generation none)) = rest := by
  have hsorted : (e :: rest).Pairwise (· ≤ ·) := h ▸ sorted_pendingIn accounts
  have hids : ((e :: rest).map HeapEntry.accountId).Nodup := h ▸ nodup_ids_pendingIn accounts
  rw [List.map_cons, List.nodup_cons] at hids
  refine eq_of_mem_iff (sorted_pendingIn _) hsorted.of_cons (nodup_pendingIn _) hids.2.of_map ?_
  intro x
  have hx : x ∈ pendingIn accounts ↔ x = e ∨ x ∈ rest := by rw [h, List.mem_cons]
  rw [mem_pendingIn] at hx ⊢
  rw [ExtTreeMap.getElem?_insert]
  by_cases hid : e.accountId = x.accountId
  · have hnot : x ∉ rest := fun hmem => hids.1 (hid ▸ List.mem_map_of_mem hmem)
    simp [hid, hnot]
  · have hne : x ≠ e := fun heq => hid (heq ▸ rfl)
    simp [hid, hx, hne]

/-! ## Operations -/

namespace RefreshMap

variable (m : RefreshMap)

/-- Files an account as pending under a new generation. -/
def file (accountId : String) (dueAtMs : Nat) : RefreshMap :=
  { m with
    generations := m.generations + 1
    accounts := m.accounts.insert accountId (.pending dueAtMs (m.generations + 1)) }

def set (accountId : String) (state : AccountState) : RefreshMap :=
  { m with accounts := m.accounts.insert accountId state }

def add (accountId : String) (dueAtMs : Nat) :
    RefreshMap × Except QuotaRefreshQueueError Bool :=
  if m.maxEntries ≤ m.accounts.size then (m, .error .capacityExceeded)
  else (m.file accountId dueAtMs, .ok true)

def upsert (accountId : String) (dueAtMs : Nat) :
    RefreshMap × Except QuotaRefreshQueueError Bool :=
  match validatedAccountId accountId with
  | .error e => (m, .error e)
  | .ok accountId =>
    match m.accounts[accountId]? with
    | none => m.add accountId dueAtMs
    | some (.pending due _) =>
      if due = dueAtMs then (m, .ok false) else (m.file accountId dueAtMs, .ok true)
    | some (.inFlight generation dirty) =>
      (m.set accountId (.inFlight generation (some dueAtMs)), .ok (dirty ≠ some dueAtMs))

def markDirty (accountId : String) (dueAtMs : Nat) :
    RefreshMap × Except QuotaRefreshQueueError Bool :=
  match validatedAccountId accountId with
  | .error e => (m, .error e)
  | .ok accountId =>
    match m.accounts[accountId]? with
    | none => m.add accountId dueAtMs
    | some (.pending due _) =>
      if due ≤ dueAtMs then (m, .ok false) else (m.file accountId dueAtMs, .ok true)
    | some (.inFlight generation dirty) =>
      if dirty.any (· ≤ dueAtMs) then (m, .ok false)
      else (m.set accountId (.inFlight generation (some dueAtMs)), .ok true)

/-- The `maxClaims` smallest pending entries that are due, or all of them if there are fewer. -/
def due (nowMs maxClaims : Nat) : List HeapEntry :=
  ((pendingIn m.accounts).filter fun e => e.dueAtMs ≤ nowMs).take maxClaims

/-- Takes the chosen entries in flight. -/
def takeInFlight (chosen : List HeapEntry) : RefreshMap :=
  chosen.foldl (fun m e => m.set e.accountId (.inFlight e.generation none)) m

def claimDue (nowMs maxClaims : Nat) : RefreshMap × List QuotaRefreshPermit :=
  (m.takeInFlight (m.due nowMs maxClaims),
    (m.due nowMs maxClaims).map fun e => ⟨e.accountId, e.dueAtMs, nowMs, e.generation⟩)

def complete (permit : QuotaRefreshPermit) : RefreshMap × Bool :=
  match m.accounts[permit.accountId]? with
  | some (.inFlight generation dirty) =>
    if generation = permit.generation then
      match dirty with
      | some due => (m.file permit.accountId due, true)
      | none => ({ m with accounts := m.accounts.erase permit.accountId }, true)
    else (m, false)
  | _ => (m, false)

def reschedule (permit : QuotaRefreshPermit) (dueAtMs : Nat) : RefreshMap × Bool :=
  match m.accounts[permit.accountId]? with
  | some (.inFlight generation dirty) =>
    if generation = permit.generation then
      match dirty with
      | some due => (m.file permit.accountId (min due dueAtMs), true)
      | none => (m.file permit.accountId dueAtMs, true)
    else (m, false)
  | _ => (m, false)

variable {permit : QuotaRefreshPermit}

/-- A permit is refused unless its account is in flight under its generation. -/
theorem complete_refused {m : RefreshMap}
    (h : ∀ dirty, m.accounts[permit.accountId]? ≠ some (.inFlight permit.generation dirty)) :
    m.complete permit = (m, false) := by
  unfold complete
  split
  · next generation dirty hget =>
    refine if_neg ?_
    rintro rfl
    exact h dirty hget
  · rfl

theorem reschedule_refused {m : RefreshMap} {dueAtMs : Nat}
    (h : ∀ dirty, m.accounts[permit.accountId]? ≠ some (.inFlight permit.generation dirty)) :
    m.reschedule permit dueAtMs = (m, false) := by
  unfold reschedule
  split
  · next generation dirty hget =>
    refine if_neg ?_
    rintro rfl
    exact h dirty hget
  · rfl

def remove (accountId : String) : RefreshMap × Bool :=
  ({ m with accounts := m.accounts.erase accountId }, m.accounts[accountId]?.isSome)

/-- The least due time of a pending entry. -/
def nextDue : Option Nat := ((pendingIn m.accounts).map HeapEntry.dueAtMs).min?

def step (m : RefreshMap) : QueueOp → RefreshMap × QueueOut
  | .upsert accountId dueAtMs => (m.upsert accountId dueAtMs).map id .updated
  | .markDirty accountId dueAtMs => (m.markDirty accountId dueAtMs).map id .updated
  | .claimDue nowMs maxClaims => (m.claimDue nowMs maxClaims).map id .claimed
  | .complete permit => (m.complete permit).map id .done
  | .reschedule permit dueAtMs => (m.reschedule permit dueAtMs).map id .done
  | .remove accountId => (m.remove accountId).map id .done
  | .nextDue => (m, .nextDue m.nextDue)

/-- What no operation undoes: the capacity is fixed, and generations are taken, never given
back. -/
structure Later (m m' : RefreshMap) : Prop where
  maxEntries : m'.maxEntries = m.maxEntries
  generations : m.generations ≤ m'.generations

section
variable {m : RefreshMap}

theorem later_refl : Later m m := ⟨rfl, Nat.le_refl _⟩

variable {accountId : String} {dueAtMs : Nat}

theorem later_file : Later m (m.file accountId dueAtMs) :=
  ⟨rfl, Nat.le_succ _⟩

theorem later_set {state : AccountState} : Later m (m.set accountId state) :=
  ⟨rfl, Nat.le_refl _⟩

theorem later_add : Later m (m.add accountId dueAtMs).1 := by
  unfold RefreshMap.add
  split
  · exact later_refl
  · exact later_file

theorem later_takeInFlight (m : RefreshMap) (chosen : List HeapEntry) :
    Later m (m.takeInFlight chosen) := by
  induction chosen generalizing m with
  | nil => exact later_refl
  | cons e rest ih =>
    have h := ih (m.set e.accountId (.inFlight e.generation none))
    exact ⟨h.maxEntries, h.generations⟩

theorem later_upsert :
    Later m (m.upsert accountId dueAtMs).1 := by
  unfold RefreshMap.upsert
  split
  · exact later_refl
  · split
    · exact later_add
    · split
      · exact later_refl
      · exact later_file
    · exact later_set

theorem later_markDirty :
    Later m (m.markDirty accountId dueAtMs).1 := by
  unfold RefreshMap.markDirty
  split
  · exact later_refl
  · split
    · exact later_add
    · split
      · exact later_refl
      · exact later_file
    · split
      · exact later_refl
      · exact later_set

variable {permit : QuotaRefreshPermit}

theorem later_complete : Later m (m.complete permit).1 := by
  unfold RefreshMap.complete
  split
  · split
    · split
      · exact later_file
      · exact ⟨rfl, Nat.le_refl _⟩
    · exact later_refl
  · exact later_refl

theorem later_reschedule :
    Later m (m.reschedule permit dueAtMs).1 := by
  unfold RefreshMap.reschedule
  split
  · split
    · split <;> exact later_file
    · exact later_refl
  · exact later_refl

theorem later_step (m : RefreshMap) (op : QueueOp) : Later m (m.step op).1 := by
  cases op <;> simp only [RefreshMap.step, Prod.map_fst, id]
  case upsert => exact later_upsert
  case markDirty => exact later_markDirty
  case claimDue => exact later_takeInFlight m _
  case complete => exact later_complete
  case reschedule => exact later_reschedule
  case remove => exact ⟨rfl, Nat.le_refl _⟩
  case nextDue => exact later_refl

end

/-! ## Accounts in flight -/

def InFlight (m : RefreshMap) (accountId : String) : Prop :=
  ∃ generation dirty, m.accounts[accountId]? = some (.inFlight generation dirty)

variable {m} {accountId : String}

theorem InFlight.set_inFlight (h : m.InFlight accountId) (other : String) (generation : Nat)
    (dirty : Option Nat) : (m.set other (.inFlight generation dirty)).InFlight accountId := by
  obtain ⟨g, d, hget⟩ := h
  by_cases hid : other = accountId
  · exact ⟨generation, dirty, by simp [set, hid]⟩
  · exact ⟨g, d, by simp [set, ExtTreeMap.getElem?_insert, hid, hget]⟩

variable {other : String}

theorem InFlight.file_other (h : m.InFlight accountId) (hid : other ≠ accountId)
    (dueAtMs : Nat) : (m.file other dueAtMs).InFlight accountId := by
  obtain ⟨g, d, hget⟩ := h
  exact ⟨g, d, by simp [file, ExtTreeMap.getElem?_insert, hid, hget]⟩

theorem InFlight.erase_other (h : m.InFlight accountId) (hid : other ≠ accountId) :
    { m with accounts := m.accounts.erase other }.InFlight accountId := by
  obtain ⟨g, d, hget⟩ := h
  exact ⟨g, d, by simp [ExtTreeMap.getElem?_erase, hid, hget]⟩

theorem InFlight.ne_of_none (h : m.InFlight accountId)
    (hget : m.accounts[other]? = none) : other ≠ accountId := by
  rintro rfl
  obtain ⟨_, _, hin⟩ := h
  rw [hget] at hin
  cases hin

theorem InFlight.ne_of_pending (h : m.InFlight accountId) {due generation : Nat}
    (hget : m.accounts[other]? = some (.pending due generation)) : other ≠ accountId := by
  rintro rfl
  obtain ⟨_, _, hin⟩ := h
  rw [hget] at hin
  cases hin

theorem InFlight.add (h : m.InFlight accountId)
    (hget : m.accounts[other]? = none) (dueAtMs : Nat) :
    (m.add other dueAtMs).1.InFlight accountId := by
  unfold RefreshMap.add
  split
  · exact h
  · exact h.file_other (h.ne_of_none hget) dueAtMs

theorem InFlight.upsert (h : m.InFlight accountId) (other : String) (dueAtMs : Nat) :
    (m.upsert other dueAtMs).1.InFlight accountId := by
  unfold RefreshMap.upsert
  cases validatedAccountId other with
  | error e => exact h
  | ok other =>
    dsimp only
    split
    · next hget => exact h.add hget dueAtMs
    · next hget =>
      split
      · exact h
      · exact h.file_other (h.ne_of_pending hget) dueAtMs
    · exact h.set_inFlight _ _ _

theorem InFlight.markDirty (h : m.InFlight accountId) (other : String) (dueAtMs : Nat) :
    (m.markDirty other dueAtMs).1.InFlight accountId := by
  unfold RefreshMap.markDirty
  cases validatedAccountId other with
  | error e => exact h
  | ok other =>
    dsimp only
    split
    · next hget => exact h.add hget dueAtMs
    · next hget =>
      split
      · exact h
      · exact h.file_other (h.ne_of_pending hget) dueAtMs
    · split
      · exact h
      · exact h.set_inFlight _ _ _

theorem InFlight.complete (h : m.InFlight accountId) (permit : QuotaRefreshPermit) :
    ((m.complete permit).2 = true ∧ permit.accountId = accountId) ∨
      (m.complete permit).1.InFlight accountId := by
  by_cases hid : permit.accountId = accountId
  · unfold RefreshMap.complete
    split
    · split
      · split <;> exact .inl ⟨rfl, hid⟩
      · exact .inr h
    · exact .inr h
  · unfold RefreshMap.complete
    split
    · split
      · split
        · exact .inr (h.file_other hid _)
        · exact .inr (h.erase_other hid)
      · exact .inr h
    · exact .inr h

theorem InFlight.reschedule (h : m.InFlight accountId) (permit : QuotaRefreshPermit)
    (dueAtMs : Nat) :
    ((m.reschedule permit dueAtMs).2 = true ∧ permit.accountId = accountId) ∨
      (m.reschedule permit dueAtMs).1.InFlight accountId := by
  by_cases hid : permit.accountId = accountId
  · unfold RefreshMap.reschedule
    split
    · split
      · split <;> exact .inl ⟨rfl, hid⟩
      · exact .inr h
    · exact .inr h
  · unfold RefreshMap.reschedule
    split
    · split
      · split <;> exact .inr (h.file_other hid _)
      · exact .inr h
    · exact .inr h

theorem InFlight.remove (h : m.InFlight accountId) (other : String) :
    ((m.remove other).2 = true ∧ other = accountId) ∨ (m.remove other).1.InFlight accountId := by
  by_cases hid : other = accountId
  · subst hid
    obtain ⟨_, _, hget⟩ := h
    exact .inl ⟨by simp [RefreshMap.remove, hget], rfl⟩
  · exact .inr (h.erase_other hid)

theorem inFlight_takeInFlight {chosen : List HeapEntry}
    (h : m.InFlight accountId ∨ ∃ e ∈ chosen, e.accountId = accountId) :
    (m.takeInFlight chosen).InFlight accountId := by
  induction chosen generalizing m with
  | nil =>
    rcases h with h | ⟨e, he, _⟩
    · exact h
    · cases he
  | cons e rest ih =>
    refine ih ?_
    rcases h with h | ⟨x, hx, hid⟩
    · exact .inl (h.set_inFlight _ _ _)
    · rcases List.mem_cons.mp hx with rfl | hmem
      · exact .inl ⟨x.generation, none, by simp [set, hid]⟩
      · exact .inr ⟨x, hmem, hid⟩

/-- What is claimed was pending. -/
theorem pending_of_due {nowMs maxClaims : Nat} {e : HeapEntry} (h : e ∈ m.due nowMs maxClaims) :
    m.accounts[e.accountId]? = some (.pending e.dueAtMs e.generation) :=
  mem_pendingIn.mp (List.mem_filter.mp (List.mem_of_mem_take h)).1

theorem nodup_ids_due (m : RefreshMap) (nowMs maxClaims : Nat) :
    ((m.due nowMs maxClaims).map HeapEntry.accountId).Nodup :=
  (nodup_ids_pendingIn m.accounts).sublist
    (((List.take_sublist _ _).trans List.filter_sublist).map _)

end RefreshMap

/-! ## No account is claimed twice -/

/-- How many permits for an account an answer hands out. -/
def claimsOf (accountId : String) : QueueOut → Nat
  | .claimed permits => permits.countP fun permit => permit.accountId = accountId
  | _ => 0

/-- An accepted `complete`, `reschedule` or `remove` of the account. -/
def settles (accountId : String) : QueueOp → QueueOut → Bool
  | .complete permit, .done accepted => accepted && permit.accountId = accountId
  | .reschedule permit _, .done accepted => accepted && permit.accountId = accountId
  | .remove id, .done accepted => accepted && id = accountId
  | _, _ => false

/-- Along a trace the account is handed out at most once before it is settled; `held` says whether
a permit is out at its start. -/
def ClaimedOnce (accountId : String) : Bool → List (QueueOp × QueueOut) → Prop
  | _, [] => True
  | held, (op, out) :: rest =>
    (if held then 1 else 0) + claimsOf accountId out ≤ 1 ∧
      ClaimedOnce accountId
        (!settles accountId op out && (held || decide (0 < claimsOf accountId out))) rest

section
variable {m : RefreshMap} {accountId : String}

/-- An account in flight stays there until it is settled. -/
theorem RefreshMap.InFlight.step (h : m.InFlight accountId) (op : QueueOp) :
    settles accountId op (m.step op).2 = true ∨ (m.step op).1.InFlight accountId := by
  cases op with
  | upsert other dueAtMs => simpa [settles, RefreshMap.step] using h.upsert other dueAtMs
  | markDirty other dueAtMs => simpa [settles, RefreshMap.step] using h.markDirty other dueAtMs
  | claimDue nowMs maxClaims =>
    simpa [settles, RefreshMap.step, RefreshMap.claimDue] using inFlight_takeInFlight (.inl h)
  | complete permit => simpa [settles, RefreshMap.step] using h.complete permit
  | reschedule permit dueAtMs => simpa [settles, RefreshMap.step] using h.reschedule permit dueAtMs
  | remove other => simpa [settles, RefreshMap.step] using h.remove other
  | nextDue => exact .inr h

theorem claimsOf_claimDue (m : RefreshMap) (accountId : String) (nowMs maxClaims : Nat) :
    claimsOf accountId (m.step (.claimDue nowMs maxClaims)).2 =
      ((m.due nowMs maxClaims).map HeapEntry.accountId).count accountId := by
  simp only [RefreshMap.step, RefreshMap.claimDue, Prod.map, claimsOf, List.countP_map,
    List.count]
  rfl

theorem claimsOf_le_one (m : RefreshMap) (accountId : String) (op : QueueOp) :
    claimsOf accountId (m.step op).2 ≤ 1 := by
  cases op with
  | claimDue nowMs maxClaims =>
    rw [claimsOf_claimDue]
    exact List.nodup_iff_count_le_one.mp (m.nodup_ids_due nowMs maxClaims) accountId
  | _ => simp [RefreshMap.step, claimsOf]

/-- A claimed account was pending, and is in flight afterwards. -/
theorem claimed_inFlight {op : QueueOp} (hpos : 0 < claimsOf accountId (m.step op).2) :
    ¬ m.InFlight accountId ∧ (m.step op).1.InFlight accountId := by
  cases op with
  | claimDue nowMs maxClaims =>
    rw [claimsOf_claimDue, List.count_pos_iff, List.mem_map] at hpos
    obtain ⟨e, he, rfl⟩ := hpos
    refine ⟨fun hin => ?_, RefreshMap.inFlight_takeInFlight (.inr ⟨e, he, rfl⟩)⟩
    exact hin.ne_of_pending (RefreshMap.pending_of_due he) rfl
  | _ => simp [RefreshMap.step, claimsOf] at hpos

/-- `held` is known to the map: an account with a permit out is in flight. -/
theorem claimedOnce_run (m : RefreshMap) (accountId : String) (held : Bool) (ops : List QueueOp)
    (hheld : held = true → m.InFlight accountId) :
    ClaimedOnce accountId held (ops.zip (runOut RefreshMap.step m ops).2) := by
  induction ops generalizing m held with
  | nil => trivial
  | cons op ops ih =>
    rw [runOut_cons, List.zip_cons_cons]
    refine ⟨?_, ih _ _ ?_⟩
    · cases held with
      | false => simpa using claimsOf_le_one m accountId op
      | true =>
        have hzero : ¬ 0 < claimsOf accountId (m.step op).2 :=
          fun hpos => (claimed_inFlight hpos).1 (hheld rfl)
        simpa using hzero
    · intro hstill
      simp only [Bool.and_eq_true, Bool.not_eq_true', Bool.or_eq_true, decide_eq_true_eq] at hstill
      obtain ⟨hsettles, hheld' | hclaimed⟩ := hstill
      · rcases (hheld hheld').step op with hs | hin
        · rw [hsettles] at hs
          cases hs
        · exact hin
      · exact (claimed_inFlight hclaimed).2

end

end Zenith.Quota
