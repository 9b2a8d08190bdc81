import Mathlib

/-!
# Maps in the order of their keys

A map as the list of its entries, with each key once and in order. `insert` sets the value of a key; `ofEntries` builds
a map from entries, of which the last of a key counts. Entries with different keys build the same map in any order
(`ofEntries_perm`), and the entries of a map build that map (`ofEntries_of_sorted`).
-/

namespace Zenith.SortedMap

variable {κ α : Type*} [LinearOrder κ]

def insert : List (κ × α) → κ → α → List (κ × α)
  | [], key, value => [(key, value)]
  | (k, v) :: entries, key, value =>
    if key = k then (key, value) :: entries
    else if key < k then (key, value) :: (k, v) :: entries
    else (k, v) :: insert entries key value

def ofEntries (entries : List (κ × α)) : List (κ × α) :=
  entries.foldl (fun map entry => insert map entry.1 entry.2) []

/-- Each key once, in order. -/
def Sorted (entries : List (κ × α)) : Prop := entries.Pairwise fun entry entry' => entry.1 < entry'.1

section
variable {entries entries' : List (κ × α)} {key : κ} {value : α}

variable {entry : κ × α}

theorem mem_of_mem_insert (h : entry ∈ insert entries key value) :
    entry = (key, value) ∨ entry ∈ entries := by
  induction entries with
  | nil => exact .inl (List.mem_singleton.mp h)
  | cons head entries ih =>
    obtain ⟨k, v⟩ := head
    rw [insert] at h
    split at h
    case isTrue =>
      rcases List.mem_cons.mp h with heq | hmem
      · exact .inl heq
      · exact .inr (List.mem_cons_of_mem _ hmem)
    case isFalse =>
      split at h
      case isTrue => exact List.mem_cons.mp h
      case isFalse =>
        rcases List.mem_cons.mp h with heq | hmem
        · exact .inr (heq ▸ List.mem_cons_self)
        · exact (ih hmem).imp id fun hmem => List.mem_cons_of_mem _ hmem

theorem sorted_insert (h : Sorted entries) (key : κ) (value : α) : Sorted (insert entries key value) := by
  induction entries with
  | nil => exact List.pairwise_singleton _ _
  | cons head entries ih =>
    obtain ⟨k, v⟩ := head
    obtain ⟨hhead, htail⟩ := List.pairwise_cons.mp h
    rw [insert]
    split
    case isTrue heq => exact List.pairwise_cons.mpr ⟨heq ▸ hhead, htail⟩
    case isFalse hne =>
      split
      case isTrue hlt =>
        refine List.pairwise_cons.mpr ⟨fun entry hentry => ?_, h⟩
        rcases List.mem_cons.mp hentry with rfl | hentry
        · exact hlt
        · exact hlt.trans (hhead entry hentry)
      case isFalse hle =>
        refine List.pairwise_cons.mpr ⟨fun entry hentry => ?_, ih htail⟩
        rcases mem_of_mem_insert hentry with rfl | hentry
        · exact lt_of_le_of_ne (not_lt.mp hle) (Ne.symm hne)
        · exact hhead entry hentry

theorem insert_perm (h : key ∉ entries.map Prod.fst) : (insert entries key value).Perm ((key, value) :: entries) := by
  induction entries with
  | nil => exact List.Perm.refl _
  | cons head entries ih =>
    obtain ⟨k, v⟩ := head
    obtain ⟨hne, hentries⟩ := not_or.mp (List.mem_cons.not.mp h)
    rw [insert, if_neg hne]
    split
    case isTrue => exact List.Perm.refl _
    case isFalse => exact ((ih hentries).cons (k, v)).trans (List.Perm.swap _ _ _)

variable {map : List (κ × α)}

theorem sorted_foldl (h : Sorted map) (entries : List (κ × α)) :
    Sorted (entries.foldl (fun map entry => insert map entry.1 entry.2) map) := by
  induction entries generalizing map with
  | nil => exact h
  | cons entry entries ih => exact ih (sorted_insert h entry.1 entry.2)

theorem sorted_ofEntries (entries : List (κ × α)) : Sorted (ofEntries entries) := sorted_foldl List.Pairwise.nil entries

theorem mem_of_mem_foldl
    (h : entry ∈ entries.foldl (fun map entry => insert map entry.1 entry.2) map) : entry ∈ map ∨ entry ∈ entries := by
  induction entries generalizing map with
  | nil => exact .inl h
  | cons head entries ih =>
    rcases ih h with hmem | hmem
    · rcases mem_of_mem_insert hmem with rfl | hmem
      · exact .inr List.mem_cons_self
      · exact .inl hmem
    · exact .inr (List.mem_cons_of_mem _ hmem)

theorem mem_of_mem_ofEntries (h : entry ∈ ofEntries entries) : entry ∈ entries :=
  (mem_of_mem_foldl h).resolve_left List.not_mem_nil

theorem foldl_perm (h : ((entries ++ map).map Prod.fst).Nodup) :
    (entries.foldl (fun map entry => insert map entry.1 entry.2) map).Perm (entries ++ map) := by
  induction entries generalizing map with
  | nil => exact List.Perm.refl map
  | cons entry entries ih =>
    have hnew : entry.1 ∉ (entries ++ map).map Prod.fst := (List.nodup_cons.mp h).1
    rw [List.map_append] at hnew
    have hmap : entry.1 ∉ map.map Prod.fst := fun hmem => hnew (List.mem_append_right _ hmem)
    have hinsert : (entries ++ insert map entry.1 entry.2).Perm (entry :: (entries ++ map)) :=
      ((insert_perm hmap).append_left entries).trans List.perm_middle
    have hrest : ((entries ++ insert map entry.1 entry.2).map Prod.fst).Nodup := (hinsert.map Prod.fst).nodup_iff.mpr h
    exact (ih hrest).trans hinsert

theorem perm_ofEntries (h : (entries.map Prod.fst).Nodup) : (ofEntries entries).Perm entries := by
  have hperm := @foldl_perm _ _ _ entries [] (by rwa [List.append_nil])
  rwa [List.append_nil] at hperm

/-- A map is determined by its entries. -/
theorem Sorted.eq_of_perm (h : Sorted entries) (h' : Sorted entries') (hperm : entries.Perm entries') : entries = entries' :=
  hperm.eq_of_pairwise (fun _ _ _ _ hlt hgt => absurd (hlt.trans hgt) (lt_irrefl _)) h h'

theorem Sorted.nodup (h : Sorted entries) : (entries.map Prod.fst).Nodup :=
  List.pairwise_map.mpr (h.imp fun hlt => ne_of_lt hlt)

theorem ofEntries_of_sorted (h : Sorted entries) : ofEntries entries = entries :=
  (sorted_ofEntries entries).eq_of_perm h (perm_ofEntries h.nodup)

theorem ofEntries_perm (h : (entries.map Prod.fst).Nodup) (hperm : entries.Perm entries') :
    ofEntries entries = ofEntries entries' := by
  refine (sorted_ofEntries entries).eq_of_perm (sorted_ofEntries entries') ?_
  exact (perm_ofEntries h).trans (hperm.trans (perm_ofEntries ((hperm.map Prod.fst).nodup_iff.mp h)).symm)

end

end Zenith.SortedMap
