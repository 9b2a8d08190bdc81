import Mathlib

/-!
# Priority queues

A heap that yields its smallest element first, seen from outside, is a list in ascending order:
`push` inserts into it, `peek?` reads its front, `pop?` takes the front off, and `popWhile` pops as
long as the front meets a condition. The order is linear, so that elements that compare equal are
equal and the list is determined by the elements pushed.

The lemmas are what lazy deletion needs. Some of the elements are live and the others are stale;
popping the stale ones off the front leaves the live ones as they are (`live_popWhile`), and the
front is then the smallest live element (`peek?_popWhile`). The live elements in order are the only
ascending list without duplicates that has these members (`eq_of_mem_iff`).
-/

namespace Zenith.Heaps

variable {α : Type} [LinearOrder α]

structure MinHeap (α : Type) [LinearOrder α] where
  items : List α
  sorted : items.Pairwise (· ≤ ·)

namespace MinHeap

def empty : MinHeap α := ⟨[], .nil⟩

def size (h : MinHeap α) : Nat := h.items.length

def push (h : MinHeap α) (a : α) : MinHeap α :=
  ⟨h.items.orderedInsert (· ≤ ·) a, h.sorted.orderedInsert a _⟩

def peek? (h : MinHeap α) : Option α := h.items.head?

def pop? : MinHeap α → Option (α × MinHeap α)
  | ⟨[], _⟩ => none
  | ⟨a :: rest, h⟩ => some (a, ⟨rest, h.of_cons⟩)

/-- `while heap.peek().is_some_and(p) { heap.pop(); }` -/
def popWhile (p : α → Bool) (h : MinHeap α) : MinHeap α :=
  ⟨h.items.dropWhile p, h.sorted.sublist (List.dropWhile_sublist p)⟩

/-- A heap collected from an iterator. -/
def ofList (l : List α) : MinHeap α :=
  ⟨l.insertionSort (· ≤ ·), List.pairwise_insertionSort _ l⟩

@[simp] theorem mem_push {h : MinHeap α} {a b : α} :
    b ∈ (h.push a).items ↔ b = a ∨ b ∈ h.items :=
  List.mem_orderedInsert _

theorem nodup_push {h : MinHeap α} {a : α} (hnd : h.items.Nodup) (ha : a ∉ h.items) :
    (h.push a).items.Nodup :=
  (List.perm_orderedInsert _ a h.items).nodup_iff.mpr (List.nodup_cons.mpr ⟨ha, hnd⟩)

@[simp] theorem mem_ofList {l : List α} {a : α} : a ∈ (ofList l).items ↔ a ∈ l :=
  List.mem_insertionSort _

@[simp] theorem size_ofList (l : List α) : (ofList l).size = l.length :=
  List.length_insertionSort _ _

theorem nodup_ofList {l : List α} (hnd : l.Nodup) : (ofList l).items.Nodup :=
  (List.perm_insertionSort _ l).nodup_iff.mpr hnd

/-- The live elements of a heap, smallest first. -/
def live (p : α → Bool) (h : MinHeap α) : List α := h.items.filter p

variable {p : α → Bool} {h : MinHeap α}

theorem mem_live {a : α} : a ∈ h.live p ↔ a ∈ h.items ∧ p a = true := List.mem_filter

theorem sorted_live : (h.live p).Pairwise (· ≤ ·) := h.sorted.sublist List.filter_sublist

theorem nodup_live (hnd : h.items.Nodup) : (h.live p).Nodup := hnd.sublist List.filter_sublist

/-- Stale elements at the front are popped without touching the live ones. -/
theorem live_popWhile : (h.popWhile fun a => !p a).live p = h.live p := by
  show (h.items.dropWhile fun a => !p a).filter p = h.items.filter p
  induction h.items with
  | nil => rfl
  | cons a rest ih =>
    cases ha : p a with
    | false => simpa [List.dropWhile_cons, List.filter_cons, ha] using ih
    | true => simp [ha]

/-- After the stale elements are popped off the front, the front is the smallest live element. -/
theorem peek?_popWhile : (h.popWhile fun a => !p a).peek? = (h.live p).head? := by
  show (h.items.dropWhile fun a => !p a).head? = (h.items.filter p).head?
  induction h.items with
  | nil => rfl
  | cons a rest ih =>
    cases ha : p a with
    | false => simpa [List.dropWhile_cons, List.filter_cons, ha] using ih
    | true => simp [ha]

theorem items_popWhile_sublist : (h.popWhile p).items.Sublist h.items :=
  List.dropWhile_sublist p

/-- What `peek?` has seen can be popped. -/
theorem pop?_of_peek? {a : α} (hpeek : h.peek? = some a) :
    ∃ rest, h.pop? = some (a, rest) ∧ h.items = a :: rest.items := by
  obtain ⟨items, hsorted⟩ := h
  cases items with
  | nil => cases hpeek
  | cons b rest =>
    obtain rfl : b = a := Option.some.inj hpeek
    exact ⟨⟨rest, hsorted.of_cons⟩, rfl, rfl⟩

end MinHeap

/-- An ascending list without duplicates is determined by its members. -/
theorem eq_of_mem_iff {l l' : List α} (hl : l.Pairwise (· ≤ ·)) (hl' : l'.Pairwise (· ≤ ·))
    (hnd : l.Nodup) (hnd' : l'.Nodup) (hmem : ∀ a, a ∈ l ↔ a ∈ l') : l = l' :=
  ((List.perm_ext_iff_of_nodup hnd hnd').mpr hmem).eq_of_pairwise' hl hl'

end Zenith.Heaps
