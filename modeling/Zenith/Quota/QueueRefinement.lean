import Zenith.Quota.RefreshMap

/-!
# The refresh queue refines the refresh map

`Represents q m` says that the queue `q` stands for the map `m`. The link between heap and map
survives every operation: the heap has no duplicates, everything in it was filed before, and every
pending entry of the map is in it. The live elements of the heap are then the pending entries in
order (`Tracks.live_eq`), whatever stale elements stand between them, and compaction, which keeps
the pending entries only, changes nothing that can be observed.

`queue_refines_map` puts the operations together: as long as fewer than `2 ^ 64` generations are
taken, the queue never panics and answers every input as the map does.
-/

namespace Zenith.Quota

open Std Zenith.Tables Zenith.Heaps Zenith.Runs

def QueueEntry.state (entry : QueueEntry) : AccountState :=
  match entry.status with
  | .pending => .pending entry.dueAtMs entry.generation
  | .inFlight => .inFlight entry.generation entry.dirtyDueAtMs

/-- The map that the entries of a queue stand for. -/
def QuotaRefreshQueue.view (q : QuotaRefreshQueue) : Table String AccountState :=
  q.entries.map fun _ entry => entry.state

theorem QuotaRefreshQueue.getElem?_view (q : QuotaRefreshQueue) (accountId : String) :
    q.view[accountId]? = q.entries[accountId]?.map QueueEntry.state :=
  ExtTreeMap.getElem?_map

/-- The link between a queue and its map, apart from the size of the heap. -/
structure Tracks (q : QuotaRefreshQueue) (m : RefreshMap) : Prop where
  maxEntries : q.maxEntries = m.maxEntries
  view : q.view = m.accounts
  clean : ∀ (id : String) (entry : QueueEntry), q.entries[id]? = some entry →
    entry.status = .pending → entry.dirtyDueAtMs = none
  room : q.entries.size ≤ q.maxEntries
  generation : m.generations + 1 < 2 ^ 64 → q.nextGeneration = m.generations + 1
  nodup : q.heap.items.Nodup
  old : ∀ e ∈ q.heap.items, e.generation ≤ m.generations
  filed : ∀ e ∈ pendingIn m.accounts, e ∈ q.heap.items

structure Represents (q : QuotaRefreshQueue) (m : RefreshMap) : Prop extends Tracks q m where
  bounded : q.heap.size ≤ 2 * q.maxEntries

open QuotaRefreshQueue

variable {q : QuotaRefreshQueue} {m : RefreshMap}

/-! ## Heap and map -/

variable {e : HeapEntry}

theorem isLive_iff : isLive q.entries e = true ↔ e ∈ pendingIn q.view := by
  rw [mem_pendingIn, q.getElem?_view, isLive]
  cases q.entries[e.accountId]? with
  | none => simp
  | some entry =>
    cases hstatus : entry.status with
    | pending => simp [QueueEntry.state, hstatus, and_comm]
    | inFlight => simp [QueueEntry.state, hstatus]

/-- The live elements of the heap are the pending entries in order. -/
theorem Tracks.live_eq (h : Tracks q m) :
    q.heap.live (isLive q.entries) = pendingIn m.accounts := by
  refine eq_of_mem_iff MinHeap.sorted_live (sorted_pendingIn _) (MinHeap.nodup_live h.nodup)
    (nodup_pendingIn _) ?_
  intro e
  rw [MinHeap.mem_live, isLive_iff, h.view]
  exact ⟨fun hmem => hmem.2, fun hmem => ⟨h.filed e hmem, hmem⟩⟩

theorem Tracks.get? (h : Tracks q m) (accountId : String) :
    m.accounts[accountId]? = q.entries[accountId]?.map QueueEntry.state := by
  rw [← h.view, q.getElem?_view]

theorem Tracks.size_eq (h : Tracks q m) : m.accounts.size = q.entries.size := by
  rw [← h.view, QuotaRefreshQueue.view, ExtTreeMap.size_map]

theorem mem_pendingEntries :
    e ∈ pendingEntries q.entries ↔ e ∈ pendingIn q.view := by
  rw [mem_pendingIn, q.getElem?_view, pendingEntries, List.mem_map]
  constructor
  · rintro ⟨⟨id, entry⟩, hmem, rfl⟩
    rw [List.mem_filter, ExtTreeMap.mem_toList_iff_getElem?_eq_some] at hmem
    obtain ⟨hget, hstatus⟩ := hmem
    simp only [decide_eq_true_eq] at hstatus
    simp [hget, QueueEntry.state, hstatus]
  · intro hget
    obtain ⟨entry, hentry, hstate⟩ := Option.map_eq_some_iff.mp hget
    refine ⟨(e.accountId, entry), List.mem_filter.mpr
      ⟨ExtTreeMap.mem_toList_iff_getElem?_eq_some.mpr hentry, ?_⟩, ?_⟩
    · cases hstatus : entry.status <;> simp_all [QueueEntry.state]
    · cases hstatus : entry.status <;> simp_all [QueueEntry.state]

theorem nodup_pendingEntries : (pendingEntries q.entries).Nodup := by
  have hids : ((pendingEntries q.entries).map HeapEntry.accountId).Nodup := by
    rw [pendingEntries, List.map_map]
    exact (nodup_keys_toList q.entries).sublist (List.filter_sublist.map _)
  exact hids.of_map

theorem length_pendingEntries_le : (pendingEntries q.entries).length ≤ q.entries.size := by
  rw [pendingEntries, List.length_map, ← ExtTreeMap.length_toList]
  exact List.length_filter_le _ _

/-- Compaction keeps the pending entries, which is all that counts. -/
theorem Tracks.compactIfNeeded (h : Tracks q m) : Represents q.compactIfNeeded m := by
  unfold QuotaRefreshQueue.compactIfNeeded
  split
  · next hsize =>
    exact ⟨h, by rw [Nat.mul_comm]; exact hsize.trans (Nat.min_le_left _ _)⟩
  · refine ⟨⟨h.maxEntries, h.view, h.clean, h.room, h.generation,
      MinHeap.nodup_ofList nodup_pendingEntries, ?_, ?_⟩, ?_⟩
    · intro e hmem
      rw [MinHeap.mem_ofList, mem_pendingEntries, h.view] at hmem
      exact h.old e (h.filed e hmem)
    · intro e hmem
      rw [MinHeap.mem_ofList, mem_pendingEntries, h.view]
      exact hmem
    · show (MinHeap.ofList (pendingEntries q.entries)).size ≤ 2 * q.maxEntries
      rw [MinHeap.size_ofList]
      have := (length_pendingEntries_le (q := q)).trans h.room
      omega

theorem Represents.discardStale (h : Represents q m) : Represents q.discardStale m where
  maxEntries := h.maxEntries
  view := h.view
  clean := h.clean
  room := h.room
  generation := h.generation
  nodup := h.nodup.sublist MinHeap.items_popWhile_sublist
  old := fun e he => h.old e (MinHeap.items_popWhile_sublist.subset he)
  filed := by
    intro e he
    have hlive : e ∈ q.heap.live (isLive q.entries) := by rw [h.live_eq]; exact he
    rw [← MinHeap.live_popWhile, MinHeap.mem_live] at hlive
    exact hlive.1
  bounded := MinHeap.items_popWhile_sublist.length_le.trans h.bounded

/-- After stale elements are discarded the heap shows the first pending entry. -/
theorem Represents.peek?_discardStale (h : Represents q m) :
    q.discardStale.heap.peek? = (pendingIn m.accounts).head? := by
  rw [← h.live_eq]
  exact MinHeap.peek?_popWhile

/-! ## Filing, marking, claiming and removing an account -/

variable {accountId : String}

/-- A new element of the heap carries a generation that no element has. -/
theorem Tracks.filePending (h : Tracks q m) (hgen : m.generations + 1 < 2 ^ 64)
    (hroom : q.entries.contains accountId ∨ q.entries.size < q.maxEntries)
    (dueAtMs : Nat) :
    Represents (q.filePending accountId dueAtMs) (m.file accountId dueAtMs) := by
  have hnext := h.generation hgen
  refine Tracks.compactIfNeeded
    ⟨h.maxEntries, ?_, ?_, ?_, ?_, MinHeap.nodup_push h.nodup ?_, ?_, ?_⟩
  · show QuotaRefreshQueue.view _ = m.accounts.insert _ _
    rw [QuotaRefreshQueue.view, map_insert, ← h.view, ← hnext]
    rfl
  · intro id entry hget hstatus
    rw [ExtTreeMap.getElem?_insert] at hget
    split at hget
    · obtain rfl := Option.some.inj hget
      rfl
    · exact h.clean id entry hget hstatus
  · show (q.entries.insert _ _).size ≤ q.maxEntries
    rw [ExtTreeMap.size_insert]
    split
    · exact h.room
    · next hnew => exact hroom.resolve_left hnew
  · intro hlt
    have hlt' : m.generations + 1 + 1 < 2 ^ 64 := hlt
    show max ((q.nextGeneration + 1) % 2 ^ 64) 1 = m.generations + 1 + 1
    rw [hnext, Nat.mod_eq_of_lt hlt']
    exact Nat.max_eq_left (Nat.le_add_left 1 _)
  · intro hmem
    have hle : q.nextGeneration ≤ m.generations := h.old _ hmem
    omega
  · intro e hmem
    show e.generation ≤ m.generations + 1
    rcases MinHeap.mem_push.mp hmem with rfl | hold
    · exact Nat.le_of_eq hnext
    · exact Nat.le_succ_of_le (h.old e hold)
  · intro e hmem
    rw [mem_pendingIn, RefreshMap.file, ExtTreeMap.getElem?_insert] at hmem
    refine MinHeap.mem_push.mpr ?_
    split at hmem
    · next hid =>
      simp only [Option.some.injEq, AccountState.pending.injEq] at hmem
      obtain ⟨due, generation, id⟩ := e
      have hid' : accountId = id := LawfulEqCmp.eq_of_compare hid
      left
      rw [hnext, hid', hmem.1, hmem.2]
    · exact .inr (h.filed e (mem_pendingIn.mpr hmem))

variable {entry : QueueEntry}

/-- Rewriting an entry that is in flight and stays so leaves heap and pending entries alone. -/
theorem Represents.setDirty (h : Represents q m)
    (hget : q.entries[accountId]? = some entry) (hstatus : entry.status = .inFlight)
    (dueAtMs : Nat) :
    Represents (q.setDirty accountId entry dueAtMs)
      (m.set accountId (.inFlight entry.generation (some dueAtMs))) where
  maxEntries := h.maxEntries
  view := by
    rw [QuotaRefreshQueue.view, QuotaRefreshQueue.setDirty, map_insert, RefreshMap.set, ← h.view,
      QueueEntry.state]
    simp only [hstatus]
    rfl
  clean := by
    intro id e hid hpending
    rw [QuotaRefreshQueue.setDirty, ExtTreeMap.getElem?_insert] at hid
    split at hid
    · obtain rfl := Option.some.inj hid
      cases hstatus.symm.trans hpending
    · exact h.clean id e hid hpending
  room := (size_insert_of_getElem? hget _).trans_le h.room
  generation := h.generation
  nodup := h.nodup
  old := h.old
  filed := by
    intro e he
    rw [mem_pendingIn, RefreshMap.set, ExtTreeMap.getElem?_insert] at he
    split at he
    · cases he
    · exact h.filed e (mem_pendingIn.mpr he)
  bounded := h.bounded

theorem Represents.erase (h : Represents q m) (accountId : String) :
    Represents { q with entries := q.entries.erase accountId }
      { m with accounts := m.accounts.erase accountId } where
  maxEntries := h.maxEntries
  view := by
    rw [QuotaRefreshQueue.view, map_erase, ← h.view]
    rfl
  clean := by
    intro id e hid
    rw [ExtTreeMap.getElem?_erase] at hid
    split at hid
    · cases hid
    · exact h.clean id e hid
  room := ExtTreeMap.size_erase_le.trans h.room
  generation := h.generation
  nodup := h.nodup
  old := h.old
  filed := by
    intro e he
    rw [mem_pendingIn, ExtTreeMap.getElem?_erase] at he
    split at he
    · cases he
    · exact h.filed e (mem_pendingIn.mpr he)
  bounded := h.bounded

/-- The front of the heap is popped and its account goes in flight. -/
theorem Represents.claimFront (h : Represents q m) {heap : MinHeap HeapEntry}
    (hitems : q.heap.items = e :: heap.items)
    (hget : q.entries[e.accountId]? = some entry)
    (hpending : m.accounts[e.accountId]? = some (.pending e.dueAtMs e.generation)) :
    Represents
      { q with
        heap
        entries := q.entries.insert e.accountId { entry with status := .inFlight } }
      (m.set e.accountId (.inFlight e.generation none)) := by
  have hnd : (e :: heap.items).Nodup := hitems ▸ h.nodup
  have hsub : ∀ x ∈ heap.items, x ∈ q.heap.items := fun x hx =>
    hitems ▸ List.mem_cons_of_mem e hx
  have hstate : entry.state = .pending e.dueAtMs e.generation := by
    have hmap := h.get? e.accountId
    rw [hpending, hget] at hmap
    exact (Option.some.inj hmap).symm
  have hstatus : entry.status = .pending := by
    cases hs : entry.status with
    | pending => rfl
    | inFlight => simp [QueueEntry.state, hs] at hstate
  have hclean := h.clean _ entry hget hstatus
  simp only [QueueEntry.state, hstatus, AccountState.pending.injEq] at hstate
  refine ⟨⟨h.maxEntries, ?_, ?_, ?_, h.generation, (List.nodup_cons.mp hnd).2,
    fun x hx => h.old x (hsub x hx), ?_⟩, ?_⟩
  · show QuotaRefreshQueue.view _ = m.accounts.insert _ _
    rw [QuotaRefreshQueue.view, map_insert, ← h.view, ← hstate.2, ← hclean]
    rfl
  · intro id x hid hx
    rw [ExtTreeMap.getElem?_insert] at hid
    split at hid
    · obtain rfl := Option.some.inj hid
      cases hx
    · exact h.clean id x hid hx
  · exact (size_insert_of_getElem? hget _).trans_le h.room
  · intro x hx
    rw [mem_pendingIn, RefreshMap.set, ExtTreeMap.getElem?_insert] at hx
    split at hx
    · cases hx
    · next hid =>
      have hold := h.filed x (mem_pendingIn.mpr hx)
      rw [hitems, List.mem_cons] at hold
      refine hold.resolve_left ?_
      rintro rfl
      exact hid ReflCmp.compare_self
  · have hsize : heap.items.length + 1 ≤ 2 * q.maxEntries := by
      have := h.bounded
      rw [MinHeap.size, hitems] at this
      exact this
    exact Nat.le_of_succ_le hsize

/-! ## Operations -/

variable {dueAtMs : Nat}

theorem Represents.insert (h : Represents q m)
    (hgen : (m.add accountId dueAtMs).1.generations < 2 ^ 64) :
    (q.insert accountId dueAtMs).2 = (m.add accountId dueAtMs).2 ∧
      Represents (q.insert accountId dueAtMs).1 (m.add accountId dueAtMs).1 := by
  unfold QuotaRefreshQueue.insert RefreshMap.add at *
  rw [← h.size_eq, h.maxEntries]
  split
  · exact ⟨rfl, h⟩
  · next hroom =>
    rw [if_neg hroom] at hgen
    refine ⟨rfl, h.toTracks.filePending hgen (.inr ?_) dueAtMs⟩
    rw [← h.size_eq, h.maxEntries]
    exact Nat.lt_of_not_le hroom

/-- An entry that exists can be scheduled. -/
theorem Represents.schedule (h : Represents q m)
    (hget : q.entries[accountId]? = some entry)
    (hgen : (m.file accountId dueAtMs).generations < 2 ^ 64) :
    ∃ q', q.schedule accountId dueAtMs = .ok q' ∧ Represents q' (m.file accountId dueAtMs) := by
  refine ⟨q.filePending accountId dueAtMs, ?_, ?_⟩
  · rw [QuotaRefreshQueue.schedule, hget]
  · exact h.toTracks.filePending hgen (.inl (contains_of_getElem? hget)) dueAtMs

theorem Represents.upsert (h : Represents q m)
    (hgen : (m.upsert accountId dueAtMs).1.generations < 2 ^ 64) :
    ∃ q', q.upsert accountId dueAtMs = .ok (q', (m.upsert accountId dueAtMs).2) ∧
      Represents q' (m.upsert accountId dueAtMs).1 := by
  revert hgen
  unfold RefreshMap.upsert QuotaRefreshQueue.upsert
  cases validatedAccountId accountId with
  | error e => exact fun _ => ⟨q, rfl, h⟩
  | ok accountId =>
    simp only [h.get? accountId]
    cases hget : q.entries[accountId]? with
    | none =>
      simp only [Option.map_none]
      intro hgen
      obtain ⟨hout, hrep⟩ := h.insert hgen
      exact ⟨_, by rw [← hout], hrep⟩
    | some entry =>
      cases hstatus : entry.status with
      | inFlight =>
        simp only [Option.map_some, QueueEntry.state, hstatus]
        exact fun _ => ⟨_, rfl, h.setDirty hget hstatus dueAtMs⟩
      | pending =>
        have hclean := h.clean _ entry hget hstatus
        simp only [Option.map_some, QueueEntry.state, hstatus, Option.any_some, hclean,
          Option.isNone_none, Bool.and_true, decide_eq_true_eq]
        split
        · exact fun _ => ⟨q, rfl, h⟩
        · intro hgen
          obtain ⟨q', hq', hrep⟩ := h.schedule hget hgen
          exact ⟨q', by rw [hq'], hrep⟩

theorem Represents.markDirty (h : Represents q m)
    (hgen : (m.markDirty accountId dueAtMs).1.generations < 2 ^ 64) :
    ∃ q', q.markDirty accountId dueAtMs = .ok (q', (m.markDirty accountId dueAtMs).2) ∧
      Represents q' (m.markDirty accountId dueAtMs).1 := by
  revert hgen
  unfold RefreshMap.markDirty QuotaRefreshQueue.markDirty
  cases validatedAccountId accountId with
  | error e => exact fun _ => ⟨q, rfl, h⟩
  | ok accountId =>
    simp only [h.get? accountId]
    cases hget : q.entries[accountId]? with
    | none =>
      simp only [Option.map_none]
      intro hgen
      obtain ⟨hout, hrep⟩ := h.insert hgen
      exact ⟨_, by rw [← hout], hrep⟩
    | some entry =>
      cases hstatus : entry.status with
      | inFlight =>
        simp only [Option.map_some, QueueEntry.state, hstatus, if_true]
        split
        · exact fun _ => ⟨q, rfl, h⟩
        · exact fun _ => ⟨_, rfl, h.setDirty hget hstatus dueAtMs⟩
      | pending =>
        simp only [Option.map_some, QueueEntry.state, hstatus, Option.any_some,
          decide_eq_true_eq, reduceCtorEq, if_false]
        split
        · exact fun _ => ⟨q, rfl, h⟩
        · intro hgen
          obtain ⟨q', hq', hrep⟩ := h.schedule hget hgen
          exact ⟨q', by rw [hq'], hrep⟩

variable {permit : QuotaRefreshPermit}

/-- The test that `complete` and `reschedule` make, in terms of the map. -/
theorem settle_cases (hget : q.entries[permit.accountId]? = some entry) :
    ((entry.status ≠ .inFlight || entry.generation ≠ permit.generation) = true ∧
      ∀ dirty, q.view[permit.accountId]? ≠ some (.inFlight permit.generation dirty)) ∨
    ((entry.status ≠ .inFlight || entry.generation ≠ permit.generation) = false ∧
      q.view[permit.accountId]? = some (.inFlight permit.generation entry.dirtyDueAtMs)) := by
  rw [getElem?_view, hget, Option.map_some, QueueEntry.state]
  cases entry.status with
  | pending => exact .inl ⟨rfl, by simp⟩
  | inFlight =>
    by_cases hgeneration : entry.generation = permit.generation
    · exact .inr ⟨by simp [hgeneration], by rw [hgeneration]⟩
    · exact .inl ⟨by simp [hgeneration], by simp [hgeneration]⟩

theorem Represents.complete (h : Represents q m)
    (hgen : (m.complete permit).1.generations < 2 ^ 64) :
    ∃ q', q.complete permit = .ok (q', (m.complete permit).2) ∧
      Represents q' (m.complete permit).1 := by
  unfold QuotaRefreshQueue.complete
  cases hget : q.entries[permit.accountId]? with
  | none =>
    rw [RefreshMap.complete_refused (by simp [h.get?, hget])]
    exact ⟨q, rfl, h⟩
  | some entry =>
    rcases settle_cases hget with ⟨htest, hview⟩ | ⟨htest, hview⟩ <;> rw [h.view] at hview
    · rw [RefreshMap.complete_refused hview]
      exact ⟨q, if_pos htest, h⟩
    · revert hgen
      simp only [RefreshMap.complete, hview, htest, if_true]
      cases entry.dirtyDueAtMs with
      | none => exact fun _ => ⟨_, rfl, h.erase permit.accountId⟩
      | some due =>
        intro hgen
        obtain ⟨q', hq', hrep⟩ := h.schedule hget hgen
        exact ⟨q', by simp [hq'], hrep⟩

theorem Represents.reschedule (h : Represents q m)
    (hgen : (m.reschedule permit dueAtMs).1.generations < 2 ^ 64) :
    ∃ q', q.reschedule permit dueAtMs = .ok (q', (m.reschedule permit dueAtMs).2) ∧
      Represents q' (m.reschedule permit dueAtMs).1 := by
  unfold QuotaRefreshQueue.reschedule
  cases hget : q.entries[permit.accountId]? with
  | none =>
    rw [RefreshMap.reschedule_refused (by simp [h.get?, hget])]
    exact ⟨q, rfl, h⟩
  | some entry =>
    rcases settle_cases hget with ⟨htest, hview⟩ | ⟨htest, hview⟩ <;> rw [h.view] at hview
    · rw [RefreshMap.reschedule_refused hview]
      exact ⟨q, if_pos htest, h⟩
    · revert hgen
      simp only [RefreshMap.reschedule, hview, htest, if_true]
      cases entry.dirtyDueAtMs with
      | none =>
        intro hgen
        obtain ⟨q', hq', hrep⟩ := h.schedule hget hgen
        exact ⟨q', by simp [hq'], hrep⟩
      | some due =>
        intro hgen
        obtain ⟨q', hq', hrep⟩ := h.schedule hget hgen
        exact ⟨q', by simp [hq'], hrep⟩

theorem Represents.remove (h : Represents q m) (accountId : String) :
    (q.remove accountId).2 = (m.remove accountId).2 ∧
      Represents (q.remove accountId).1 (m.remove accountId).1 := by
  refine ⟨?_, h.erase accountId⟩
  show q.entries[accountId]?.isSome = m.accounts[accountId]?.isSome
  rw [h.get?, Option.isSome_map]

/-- The loop of `claim_due` takes the due entries in order, one at a time. -/
theorem Represents.claimDue (h : Represents q m) (nowMs maxClaims : Nat) :
    ∃ q', q.claimDue nowMs maxClaims = .ok (q', (m.claimDue nowMs maxClaims).2) ∧
      Represents q' (m.claimDue nowMs maxClaims).1 := by
  induction maxClaims generalizing q m with
  | zero => exact ⟨q, rfl, h⟩
  | succ maxClaims ih =>
    have hrep := h.discardStale
    have hpeek := h.peek?_discardStale
    rw [QuotaRefreshQueue.claimDue]
    simp only [hpeek]
    cases hpending : pendingIn m.accounts with
    | nil =>
      have hdue : m.due nowMs (maxClaims + 1) = [] := by rw [RefreshMap.due, hpending]; rfl
      simp only [List.head?_nil, RefreshMap.claimDue, hdue]
      exact ⟨_, rfl, hrep⟩
    | cons e rest =>
      simp only [List.head?_cons]
      split
      · next hlate =>
        -- The first pending entry is not due, so none is.
        have hnone : (e :: rest).filter (fun x => x.dueAtMs ≤ nowMs) = [] := by
          refine List.filter_eq_nil_iff.mpr fun x hx => ?_
          simpa using Nat.lt_of_lt_of_le hlate (dueAtMs_le_of_pendingIn hpending hx)
        have hdue : m.due nowMs (maxClaims + 1) = [] := by
          rw [RefreshMap.due, hpending, hnone]
          rfl
        simp only [RefreshMap.claimDue, hdue]
        exact ⟨_, rfl, hrep⟩
      · next hlate =>
        have hget : m.accounts[e.accountId]? = some (.pending e.dueAtMs e.generation) :=
          mem_pendingIn.mp (hpending ▸ List.mem_cons_self)
        obtain ⟨heap, hpop, hitems⟩ := MinHeap.pop?_of_peek?
          (show q.discardStale.heap.peek? = some e by rw [hpeek, hpending]; rfl)
        obtain ⟨entry, hentry, _⟩ := Option.map_eq_some_iff.mp ((hrep.get? e.accountId).symm.trans hget)
        have hdue : m.due nowMs (maxClaims + 1) =
            e :: (m.set e.accountId (.inFlight e.generation none)).due nowMs maxClaims := by
          rw [RefreshMap.due, hpending, List.filter_cons_of_pos (by simpa using hlate),
            List.take_succ_cons, RefreshMap.due, RefreshMap.set, pendingIn_claim hpending]
        obtain ⟨q', hq', hrep'⟩ := ih (hrep.claimFront hitems hentry hget)
        simp only [hpop, hentry, hq', RefreshMap.claimDue, hdue]
        exact ⟨q', rfl, hrep'⟩

theorem Represents.nextDue (h : Represents q m) :
    q.nextDue.2 = m.nextDue ∧ Represents q.nextDue.1 m := by
  refine ⟨?_, h.discardStale⟩
  show q.discardStale.heap.peek?.map (·.dueAtMs) = m.nextDue
  rw [h.peek?_discardStale, RefreshMap.nextDue]
  cases hpending : pendingIn m.accounts with
  | nil => rfl
  | cons e rest =>
    symm
    show ((e :: rest).map HeapEntry.dueAtMs).min? = some e.dueAtMs
    rw [List.min?_eq_some_iff]
    refine ⟨List.mem_cons_self, ?_⟩
    intro due hdue
    obtain ⟨x, hx, rfl⟩ := List.mem_map.mp hdue
    exact dueAtMs_le_of_pendingIn hpending hx

/-- One step of the queue is one step of the map. -/
theorem Represents.step (h : Represents q m) (op : QueueOp)
    (hgen : (m.step op).1.generations < 2 ^ 64) :
    ∃ q', q.step op = .ok (q', (m.step op).2) ∧ Represents q' (m.step op).1 := by
  cases op <;> simp only [QuotaRefreshQueue.step, RefreshMap.step, Prod.map_fst, Prod.map_snd, id]
    at hgen ⊢
  case upsert accountId dueAtMs =>
    obtain ⟨q', hq', hrep⟩ := h.upsert hgen
    exact ⟨q', by rw [hq', answer], hrep⟩
  case markDirty accountId dueAtMs =>
    obtain ⟨q', hq', hrep⟩ := h.markDirty hgen
    exact ⟨q', by rw [hq', answer], hrep⟩
  case claimDue nowMs maxClaims =>
    obtain ⟨q', hq', hrep⟩ := h.claimDue nowMs maxClaims
    exact ⟨q', by rw [hq', answer], hrep⟩
  case complete permit =>
    obtain ⟨q', hq', hrep⟩ := h.complete hgen
    exact ⟨q', by rw [hq', answer], hrep⟩
  case reschedule permit dueAtMs =>
    obtain ⟨q', hq', hrep⟩ := h.reschedule hgen
    exact ⟨q', by rw [hq', answer], hrep⟩
  case remove accountId =>
    obtain ⟨hout, hrep⟩ := h.remove accountId
    exact ⟨_, by rw [answer, hout], hrep⟩
  case nextDue =>
    obtain ⟨hout, hrep⟩ := h.nextDue
    exact ⟨_, by rw [answer, hout], hrep⟩

theorem Represents.start {capacity : Nat} (hnew : QuotaRefreshQueue.new capacity = .ok q) :
    Represents q (.ofCapacity capacity) := by
  unfold QuotaRefreshQueue.new at hnew
  split at hnew
  · cases hnew
  · obtain rfl := Except.ok.inj hnew
    refine ⟨⟨rfl, ?_, ?_, ?_, fun _ => rfl, List.nodup_nil, ?_, ?_⟩, Nat.zero_le _⟩
    · refine ExtTreeMap.ext_getElem? fun id => ?_
      rw [QuotaRefreshQueue.getElem?_view]
      rfl
    · intro id entry hget
      cases hget
    · exact Nat.zero_le _
    · intro e hmem
      cases hmem
    · intro e hmem
      cases mem_pendingIn.mp hmem

/-! ## Settling a permit -/

/-- A permit is accepted exactly while it is the one in flight. A refused permit changes nothing;
after an accepted one the account is pending again if a due time was recorded in the meantime,
at the time that `keep` makes of it. -/
def SettlesInFlight (q : QuotaRefreshQueue) (permit : QuotaRefreshPermit) (keep : Nat → Nat)
    (result : Except QueuePanic (QuotaRefreshQueue × Bool)) : Prop :=
  ∃ q' accepted, result = .ok (q', accepted) ∧
    (accepted = true ↔
      ∃ dirty, q.view[permit.accountId]? = some (.inFlight permit.generation dirty)) ∧
    (accepted = false → q' = q) ∧
    ∀ due, q.view[permit.accountId]? = some (.inFlight permit.generation (some due)) →
      ∃ generation, q'.view[permit.accountId]? = some (.pending (keep due) generation)

theorem entries_compactIfNeeded (q : QuotaRefreshQueue) :
    q.compactIfNeeded.entries = q.entries := by
  unfold QuotaRefreshQueue.compactIfNeeded
  split <;> rfl

theorem view_filePending (q : QuotaRefreshQueue) (accountId : String) (dueAtMs : Nat) :
    (q.filePending accountId dueAtMs).view[accountId]? =
      some (.pending dueAtMs q.nextGeneration) := by
  rw [getElem?_view, QuotaRefreshQueue.filePending, entries_compactIfNeeded]
  simp [takeGeneration, QueueEntry.state]

theorem schedule_eq (hget : q.entries[accountId]? = some entry) (dueAtMs : Nat) :
    q.schedule accountId dueAtMs = .ok (q.filePending accountId dueAtMs) := by
  rw [QuotaRefreshQueue.schedule, hget]

section
variable {permit : QuotaRefreshPermit} {keep : Nat → Nat}

theorem settlesInFlight_refused
    (hnot : ∀ dirty, q.view[permit.accountId]? ≠ some (.inFlight permit.generation dirty)) :
    SettlesInFlight q permit keep (.ok (q, false)) := by
  refine ⟨q, false, rfl, ⟨fun h => ?_, fun ⟨dirty, h⟩ => absurd h (hnot dirty)⟩, fun _ => rfl, ?_⟩
  · cases h
  · intro due h
    exact absurd h (hnot _)

theorem settlesInFlight_accepted {q' : QuotaRefreshQueue} {dirty : Option Nat}
    (hview : q.view[permit.accountId]? = some (.inFlight permit.generation dirty))
    (hkept : ∀ due, dirty = some due →
      ∃ generation, q'.view[permit.accountId]? = some (.pending (keep due) generation)) :
    SettlesInFlight q permit keep (.ok (q', true)) := by
  refine ⟨q', true, rfl, ⟨fun _ => ⟨dirty, hview⟩, fun _ => rfl⟩, fun h => ?_, ?_⟩
  · cases h
  · intro due h
    rw [hview] at h
    exact hkept due (by simpa using h)

end

theorem settlesInFlight_complete (q : QuotaRefreshQueue) (permit : QuotaRefreshPermit) :
    SettlesInFlight q permit id (q.complete permit) := by
  unfold QuotaRefreshQueue.complete
  cases hget : q.entries[permit.accountId]? with
  | none => exact settlesInFlight_refused (by simp [getElem?_view, hget])
  | some entry =>
    dsimp only
    rcases settle_cases hget with ⟨htest, hview⟩ | ⟨htest, hview⟩
    · rw [if_pos htest]
      exact settlesInFlight_refused hview
    · rw [htest, if_neg Bool.false_ne_true]
      cases hdirty : entry.dirtyDueAtMs with
      | none => exact settlesInFlight_accepted hview (by simp [hdirty])
      | some recorded =>
        dsimp only
        rw [schedule_eq hget]
        refine settlesInFlight_accepted hview fun due h => ?_
        obtain rfl : recorded = due := Option.some.inj (hdirty.symm.trans h)
        exact ⟨_, view_filePending q _ _⟩

theorem settlesInFlight_reschedule (q : QuotaRefreshQueue) (permit : QuotaRefreshPermit)
    (dueAtMs : Nat) :
    SettlesInFlight q permit (fun due => min due dueAtMs) (q.reschedule permit dueAtMs) := by
  unfold QuotaRefreshQueue.reschedule
  cases hget : q.entries[permit.accountId]? with
  | none => exact settlesInFlight_refused (by simp [getElem?_view, hget])
  | some entry =>
    dsimp only
    rcases settle_cases hget with ⟨htest, hview⟩ | ⟨htest, hview⟩
    · rw [if_pos htest]
      exact settlesInFlight_refused hview
    · rw [htest, if_neg Bool.false_ne_true, schedule_eq hget]
      refine settlesInFlight_accepted hview fun due h => ?_
      rw [h]
      exact ⟨_, view_filePending q _ _⟩

/-! ## Refinement -/

/-- A queue of any capacity, through any sequence of operations that takes fewer than `2 ^ 64`
generations: it does not panic, answers as the map does, stands for the map reached, and its heap
has at most twice as many elements as the queue may have entries. No account is handed out again
before it is settled, and permits are settled only while they are in flight. -/
theorem queue_refines_map {capacity : Nat} {q₀ : QuotaRefreshQueue}
    (hnew : QuotaRefreshQueue.new capacity = .ok q₀) (ops : List QueueOp)
    (hgen : (runOut RefreshMap.step (.ofCapacity capacity) ops).1.generations < 2 ^ 64) :
    ∃ q outs, runExcept QuotaRefreshQueue.step q₀ ops = .ok (q, outs) ∧
      outs = (runOut RefreshMap.step (.ofCapacity capacity) ops).2 ∧
      q.view = (runOut RefreshMap.step (.ofCapacity capacity) ops).1.accounts ∧
      q.heap.size ≤ 2 * capacity ∧
      (∀ accountId, ClaimedOnce accountId false (ops.zip outs)) ∧
      ∀ permit, SettlesInFlight q permit id (q.complete permit) ∧
        ∀ dueAtMs, SettlesInFlight q permit (fun due => min due dueAtMs)
          (q.reschedule permit dueAtMs) := by
  have hstart := Represents.start hnew
  obtain ⟨q, hrun, hrep⟩ := simulation (K := fun m => m.generations < 2 ^ 64)
    (fun m op hlt => Nat.lt_of_le_of_lt (m.later_step op).generations hlt)
    (fun q m op h hlt => h.step op hlt) hstart hgen
  have hcapacity : (runOut RefreshMap.step (.ofCapacity capacity) ops).1.maxEntries = capacity :=
    runOut_invariant (I := fun m : RefreshMap => m.maxEntries = capacity)
      (fun m op h => (m.later_step op).maxEntries.trans h) rfl ops
  refine ⟨q, _, hrun, rfl, hrep.view, ?_, ?_, ?_⟩
  · rw [← hcapacity, ← hrep.maxEntries]
    exact hrep.bounded
  · intro accountId
    exact claimedOnce_run _ accountId false ops (fun h => by cases h)
  · exact fun permit => ⟨settlesInFlight_complete q permit,
      fun dueAtMs => settlesInFlight_reschedule q permit dueAtMs⟩

/-- Two accounts; the first is rescheduled and leaves a stale element in the heap, the second is
claimed and marked dirty in flight. -/
def sampleQueueOps : List QueueOp :=
  [.upsert "a" 10, .upsert "a" 30, .upsert "b" 20, .claimDue 25 2, .markDirty "b" 22,
    .complete ⟨"b", 20, 25, 3⟩, .nextDue]

theorem queue_refines_map_sample :
    ∃ q outs,
      runExcept QuotaRefreshQueue.step
        { maxEntries := 2, nextGeneration := 1, entries := ∅, heap := .empty } sampleQueueOps =
          .ok (q, outs) ∧
      outs[3]? = some (.claimed [⟨"b", 20, 25, 3⟩]) ∧ outs[6]? = some (.nextDue (some 22)) ∧
      q.heap.size ≤ 4 := by
  have hgen : (runOut RefreshMap.step (.ofCapacity 2) sampleQueueOps).1.generations < 2 ^ 64 := by
    decide +kernel
  obtain ⟨q, outs, hrun, houts, _, hsize, _, _⟩ := @queue_refines_map 2 _ rfl
    sampleQueueOps hgen
  refine ⟨q, outs, hrun, ?_, ?_, hsize⟩
  · rw [houts]
    rfl
  · rw [houts]
    rfl

end Zenith.Quota
