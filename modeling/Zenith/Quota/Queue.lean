import Zenith.Lib.Text
import Zenith.Lib.Tables
import Zenith.Lib.MinHeap

/-!
# The quota refresh queue

`quota/queue.rs`: a bounded set of accounts whose quota is to be fetched again, each at its own
time. The state of an account is in `entries`. The order in which accounts become due is in
`heap`, from which nothing is deleted when an account is rescheduled, claimed or removed: an
element of the heap counts only while the entry of its account is pending with the same generation
and due time, and is popped when it comes to the front otherwise.

The four `expect(..)` calls of the source are explicit: an operation returns
`Except QueuePanic`, and a panic names the call that failed.
-/

namespace Zenith.Quota

open Std Zenith.Text Zenith.Tables Zenith.Heaps

def maxAccountIdBytes : Nat := 256

inductive QuotaRefreshQueueError
  | invalidCapacity
  | invalidAccountId
  | capacityExceeded
deriving DecidableEq, Repr

/-- The `expect(..)` calls: "existing quota refresh entry disappeared", "peeked quota refresh entry
vanished", "live quota refresh entry vanished" and "quota refresh schedule requires an existing
entry". -/
inductive QueuePanic
  | existingEntryDisappeared
  | peekedEntryVanished
  | liveEntryVanished
  | scheduleRequiresEntry
deriving DecidableEq, Repr

structure QuotaRefreshPermit where
  accountId : String
  dueAtMs : Nat
  claimedAtMs : Nat
  generation : Nat
deriving DecidableEq, Repr

inductive QueueStatus
  | pending
  | inFlight
deriving DecidableEq, Repr

structure QueueEntry where
  status : QueueStatus
  dueAtMs : Nat
  generation : Nat
  dirtyDueAtMs : Option Nat
deriving DecidableEq, Repr

/-- Heap elements are compared field by field, in this order. -/
structure HeapEntry where
  dueAtMs : Nat
  generation : Nat
  accountId : String
deriving DecidableEq, Repr

def HeapEntry.key (e : HeapEntry) : ℕ ×ₗ ℕ ×ₗ String :=
  toLex (e.dueAtMs, toLex (e.generation, e.accountId))

theorem HeapEntry.key_injective : Function.Injective HeapEntry.key := by
  rintro ⟨due, generation, id⟩ ⟨due', generation', id'⟩ h
  simp only [HeapEntry.key, EmbeddingLike.apply_eq_iff_eq, Prod.mk.injEq] at h
  obtain ⟨rfl, rfl, rfl⟩ := h
  rfl

instance : LinearOrder HeapEntry := LinearOrder.lift' HeapEntry.key HeapEntry.key_injective

/-- The due time is compared first. -/
theorem HeapEntry.dueAtMs_le {a b : HeapEntry} (h : a ≤ b) : a.dueAtMs ≤ b.dueAtMs := by
  have hkey : a.key ≤ b.key := h
  rcases (Prod.Lex.le_iff.mp hkey) with hlt | ⟨heq, _⟩
  · exact Nat.le_of_lt hlt
  · exact Nat.le_of_eq heq

structure QuotaRefreshQueue where
  maxEntries : Nat
  nextGeneration : Nat
  entries : Table String QueueEntry
  heap : MinHeap HeapEntry

/-- An account id is at most 256 bytes of text without control characters or surrounding white
space. -/
def validatedAccountId (accountId : String) : Except QuotaRefreshQueueError String :=
  let trimmed := trim accountId
  if trimmed = "" || trimmed.utf8ByteSize > maxAccountIdBytes || trimmed ≠ accountId ||
      trimmed.toList.any isControl then
    .error .invalidAccountId
  else
    .ok trimmed

namespace QuotaRefreshQueue

def new (maxEntries : Nat) : Except QuotaRefreshQueueError QuotaRefreshQueue :=
  if maxEntries = 0 then .error .invalidCapacity
  else .ok { maxEntries, nextGeneration := 1, entries := ∅, heap := .empty }

variable (q : QuotaRefreshQueue)

def len : Nat := q.entries.size

def isInFlight (accountId : String) : Bool :=
  q.entries[accountId]?.any fun entry => entry.status = .inFlight

/-! ## Generations and the heap -/

/-- `next_generation.wrapping_add(1).max(1)` on 64 bits: zero is never handed out. -/
def takeGeneration : Nat × QuotaRefreshQueue :=
  (q.nextGeneration, { q with nextGeneration := max ((q.nextGeneration + 1) % 2 ^ 64) 1 })

/-- A heap element is live while its account is pending with its generation and due time. -/
def isLive (entries : Table String QueueEntry) (e : HeapEntry) : Bool :=
  entries[e.accountId]?.any fun state =>
    state.status = .pending && state.generation = e.generation && state.dueAtMs = e.dueAtMs

def discardStale : QuotaRefreshQueue :=
  { q with heap := q.heap.popWhile fun e => !isLive q.entries e }

/-- The pending entries, as elements of a heap. -/
def pendingEntries (entries : Table String QueueEntry) : List HeapEntry :=
  (entries.toList.filter fun item => item.2.status = .pending).map fun item =>
    ⟨item.2.dueAtMs, item.2.generation, item.1⟩

/-- The heap is rebuilt from the pending entries when it holds more than
`max_entries.saturating_mul(2)` elements. -/
def compactIfNeeded : QuotaRefreshQueue :=
  if q.heap.size ≤ min (q.maxEntries * 2) (2 ^ 64 - 1) then q
  else { q with heap := .ofList (pendingEntries q.entries) }

/-- Files `accountId` as pending under a new generation: the common end of `insert` and
`schedule`. -/
def filePending (accountId : String) (dueAtMs : Nat) : QuotaRefreshQueue :=
  let (generation, q) := q.takeGeneration
  { q with
    entries := q.entries.insert accountId
      { status := .pending, dueAtMs, generation, dirtyDueAtMs := none }
    heap := q.heap.push ⟨dueAtMs, generation, accountId⟩ }.compactIfNeeded

def insert (accountId : String) (dueAtMs : Nat) :
    QuotaRefreshQueue × Except QuotaRefreshQueueError Bool :=
  if q.maxEntries ≤ q.entries.size then (q, .error .capacityExceeded)
  else (q.filePending accountId dueAtMs, .ok true)

def schedule (accountId : String) (dueAtMs : Nat) : Except QueuePanic QuotaRefreshQueue :=
  match q.entries[accountId]? with
  | none => .error .scheduleRequiresEntry
  | some _ => .ok (q.filePending accountId dueAtMs)

/-! ## Operations -/

/-- Records a due time on an account that is being refreshed. -/
def setDirty (accountId : String) (entry : QueueEntry) (dueAtMs : Nat) : QuotaRefreshQueue :=
  { q with entries := q.entries.insert accountId { entry with dirtyDueAtMs := some dueAtMs } }

def upsert (accountId : String) (dueAtMs : Nat) :
    Except QueuePanic (QuotaRefreshQueue × Except QuotaRefreshQueueError Bool) :=
  match validatedAccountId accountId with
  | .error e => .ok (q, .error e)
  | .ok accountId =>
    match q.entries[accountId]?.map QueueEntry.status with
    | none => .ok (q.insert accountId dueAtMs)
    | some .inFlight =>
      match q.entries[accountId]? with
      | none => .error .existingEntryDisappeared
      | some entry =>
        let changed := decide (entry.dirtyDueAtMs ≠ some dueAtMs)
        .ok (q.setDirty accountId entry dueAtMs, .ok changed)
    | some .pending =>
      let unchanged := q.entries[accountId]?.any fun entry =>
        entry.dueAtMs = dueAtMs && entry.dirtyDueAtMs.isNone
      if unchanged then .ok (q, .ok false)
      else
        match q.schedule accountId dueAtMs with
        | .error panic => .error panic
        | .ok q => .ok (q, .ok true)

def markDirty (accountId : String) (dueAtMs : Nat) :
    Except QueuePanic (QuotaRefreshQueue × Except QuotaRefreshQueueError Bool) :=
  match validatedAccountId accountId with
  | .error e => .ok (q, .error e)
  | .ok accountId =>
    match q.entries[accountId]? with
    | none => .ok (q.insert accountId dueAtMs)
    | some entry =>
      let currentDue := match entry.status with
        | .pending => some entry.dueAtMs
        | .inFlight => entry.dirtyDueAtMs
      if currentDue.any (· ≤ dueAtMs) then .ok (q, .ok false)
      else if entry.status = .inFlight then
        match q.entries[accountId]? with
        | none => .error .existingEntryDisappeared
        | some entry => .ok (q.setDirty accountId entry dueAtMs, .ok true)
      else
        match q.schedule accountId dueAtMs with
        | .error panic => .error panic
        | .ok q => .ok (q, .ok true)

/-- The loop of `claim_due`, by the number of permits that may still be handed out. -/
def claimDue (q : QuotaRefreshQueue) (nowMs : Nat) :
    Nat → Except QueuePanic (QuotaRefreshQueue × List QuotaRefreshPermit)
  | 0 => .ok (q, [])
  | maxClaims + 1 =>
    let q := q.discardStale
    match q.heap.peek? with
    | none => .ok (q, [])
    | some next =>
      if next.dueAtMs > nowMs then .ok (q, [])
      else
        match q.heap.pop? with
        | none => .error .peekedEntryVanished
        | some (next, heap) =>
          match q.entries[next.accountId]? with
          | none => .error .liveEntryVanished
          | some entry =>
            let q := { q with
              heap
              entries := q.entries.insert next.accountId { entry with status := .inFlight } }
            let permit := ⟨next.accountId, next.dueAtMs, nowMs, next.generation⟩
            match q.claimDue nowMs maxClaims with
            | .error panic => .error panic
            | .ok (q, permits) => .ok (q, permit :: permits)

def complete (permit : QuotaRefreshPermit) : Except QueuePanic (QuotaRefreshQueue × Bool) :=
  match q.entries[permit.accountId]? with
  | none => .ok (q, false)
  | some entry =>
    if entry.status ≠ .inFlight || entry.generation ≠ permit.generation then .ok (q, false)
    else
      match entry.dirtyDueAtMs with
      | some dueAtMs =>
        match q.schedule permit.accountId dueAtMs with
        | .error panic => .error panic
        | .ok q => .ok (q, true)
      | none => .ok ({ q with entries := q.entries.erase permit.accountId }, true)

def reschedule (permit : QuotaRefreshPermit) (dueAtMs : Nat) :
    Except QueuePanic (QuotaRefreshQueue × Bool) :=
  match q.entries[permit.accountId]? with
  | none => .ok (q, false)
  | some entry =>
    if entry.status ≠ .inFlight || entry.generation ≠ permit.generation then .ok (q, false)
    else
      let dueAtMs := (entry.dirtyDueAtMs.map fun dirtyDue => min dirtyDue dueAtMs).getD dueAtMs
      match q.schedule permit.accountId dueAtMs with
      | .error panic => .error panic
      | .ok q => .ok (q, true)

def remove (accountId : String) : QuotaRefreshQueue × Bool :=
  ({ q with entries := q.entries.erase accountId }, q.entries[accountId]?.isSome)

def nextDue : QuotaRefreshQueue × Option Nat :=
  let q := q.discardStale
  (q, q.heap.peek?.map (·.dueAtMs))

end QuotaRefreshQueue

/-! ## Runs -/

inductive QueueOp
  | upsert (accountId : String) (dueAtMs : Nat)
  | markDirty (accountId : String) (dueAtMs : Nat)
  | claimDue (nowMs maxClaims : Nat)
  | complete (permit : QuotaRefreshPermit)
  | reschedule (permit : QuotaRefreshPermit) (dueAtMs : Nat)
  | remove (accountId : String)
  | nextDue

inductive QueueOut
  | updated (result : Except QuotaRefreshQueueError Bool)
  | claimed (permits : List QuotaRefreshPermit)
  | done (accepted : Bool)
  | nextDue (dueAtMs : Option Nat)

/-- Wraps the answer of an operation. -/
def answer {α : Type} (out : α → QueueOut) :
    Except QueuePanic (QuotaRefreshQueue × α) → Except QueuePanic (QuotaRefreshQueue × QueueOut)
  | .error panic => .error panic
  | .ok (q, a) => .ok (q, out a)

def QuotaRefreshQueue.step (q : QuotaRefreshQueue) :
    QueueOp → Except QueuePanic (QuotaRefreshQueue × QueueOut)
  | .upsert accountId dueAtMs => answer .updated (q.upsert accountId dueAtMs)
  | .markDirty accountId dueAtMs => answer .updated (q.markDirty accountId dueAtMs)
  | .claimDue nowMs maxClaims => answer .claimed (q.claimDue nowMs maxClaims)
  | .complete permit => answer .done (q.complete permit)
  | .reschedule permit dueAtMs => answer .done (q.reschedule permit dueAtMs)
  | .remove accountId => answer .done (.ok (q.remove accountId))
  | .nextDue => answer .nextDue (.ok q.nextDue)

end Zenith.Quota
