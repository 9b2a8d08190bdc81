import Mathlib

/-!
# Rows of a table

A table is the list of its rows. `upsert` is the insertion that updates the row with the same key in
place, `lookupKey` finds a row by its key, and `groupRows` is the grouping of an aggregate query. The
lemmas assume what a unique index gives: the keys of the rows are distinct.
-/

namespace Zenith.Rows

section
variable {ρ κ : Type} [DecidableEq κ] (key : ρ → κ)

def lookupKey (k : κ) (rows : List ρ) : Option ρ := rows.find? fun row => key row = k

/-- `INSERT … ON CONFLICT(key) DO UPDATE`: `update` takes the old row and the new one. -/
def upsert (update : ρ → ρ → ρ) (new : ρ) : List ρ → List ρ
  | [] => [new]
  | row :: rows => if key row = key new then update row new :: rows else row :: upsert update new rows

/-- The row that an upsert leaves. -/
def merged (update : ρ → ρ → ρ) (new : ρ) (rows : List ρ) : ρ :=
  match lookupKey key (key new) rows with
  | none => new
  | some row => update row new

/-- The groups of `GROUP BY key`. -/
def groupRows (rows : List ρ) : List (κ × List ρ) :=
  ((rows.map key).dedup).map fun k => (k, rows.filter fun row => key row = k)

variable {key}

variable {k : κ} {rows : List ρ}

theorem lookupKey_eq_some {row : ρ} (h : lookupKey key k rows = some row) :
    row ∈ rows ∧ key row = k :=
  ⟨List.mem_of_find?_eq_some h, of_decide_eq_true (List.find?_some h :)⟩

theorem lookupKey_eq_none :
    lookupKey key k rows = none ↔ k ∉ rows.map key := by
  simp only [lookupKey, List.find?_eq_none, decide_eq_true_eq, List.mem_map, not_exists, not_and]

theorem lookupKey_of_mem (hnd : (rows.map key).Nodup) {row : ρ} (h : row ∈ rows) :
    lookupKey key (key row) rows = some row := by
  induction rows with
  | nil => exact nomatch h
  | cons first rows ih =>
    rw [List.map_cons, List.nodup_cons] at hnd
    rcases List.mem_cons.mp h with rfl | h
    · simp [lookupKey]
    · have hne : key first ≠ key row := fun heq => hnd.1 (heq ▸ List.mem_map_of_mem h)
      have := ih hnd.2 h
      rwa [lookupKey, List.find?_cons_of_neg (by simpa using hne)]

theorem lookupKey_filter {p : ρ → Bool} (hp : ∀ row, key row = k → p row = true) :
    lookupKey key k (rows.filter p) = lookupKey key k rows := by
  rw [lookupKey, lookupKey, List.find?_filter]
  refine congrArg (List.find? · rows) (funext fun row => ?_)
  by_cases hk : key row = k
  · simp [hk, hp row hk]
  · simp [hk]

theorem perm_filter_not (p : ρ → Bool) (rows : List ρ) :
    rows.Perm ((rows.filter fun row => !p row) ++ rows.filter p) :=
  (List.filter_append_perm (fun row => !p row) rows).symm.trans (by simp)

/-- With distinct keys, a row can be told apart from the others. -/
theorem perm_cons_filter (hnd : (rows.map key).Nodup) {row : ρ} (h : row ∈ rows) :
    rows.Perm (row :: rows.filter fun other => key other ≠ key row) := by
  induction rows with
  | nil => exact nomatch h
  | cons first rows ih =>
    rw [List.map_cons, List.nodup_cons] at hnd
    rcases List.mem_cons.mp h with rfl | h
    · have hrest : (rows.filter fun other => key other ≠ key row) = rows := by
        refine List.filter_eq_self.mpr fun other hother => ?_
        have hne : key other ≠ key row := fun heq => hnd.1 (heq ▸ List.mem_map_of_mem hother)
        exact decide_eq_true hne
      rw [List.filter_cons_of_neg (by simp), hrest]
    · have hne : key first ≠ key row := fun heq => hnd.1 (heq ▸ List.mem_map_of_mem h)
      rw [List.filter_cons_of_pos (by simpa using hne)]
      exact ((ih hnd.2 h).cons first).trans (List.Perm.swap ..)

section
variable {update : ρ → ρ → ρ} {new : ρ} {rows : List ρ}

/-- An upsert replaces the row with the key of the new one, and leaves the others. -/
theorem upsert_perm (hnd : (rows.map key).Nodup) :
    (upsert key update new rows).Perm
      (merged key update new rows :: rows.filter fun row => key row ≠ key new) := by
  induction rows with
  | nil => exact List.Perm.refl _
  | cons row rows ih =>
    rw [List.map_cons, List.nodup_cons] at hnd
    rw [upsert]
    split
    case isTrue heq =>
      have hrest : (rows.filter fun other => key other ≠ key new) = rows := by
        refine List.filter_eq_self.mpr fun other hother => ?_
        have hne : key other ≠ key new := fun hother' =>
          hnd.1 (heq ▸ hother' ▸ List.mem_map_of_mem hother)
        exact decide_eq_true hne
      rw [List.filter_cons_of_neg (by simpa using heq), hrest]
      simp [merged, lookupKey, heq]
    case isFalse hne =>
      have hmerged : merged key update new (row :: rows) = merged key update new rows := by
        simp [merged, lookupKey, hne]
      rw [List.filter_cons_of_pos (by simpa using hne), hmerged]
      exact ((ih hnd.2).cons row).trans (List.Perm.swap ..)

variable (hupdate : ∀ old, key old = key new → key (update old new) = key new)

include hupdate

theorem key_merged : key (merged key update new rows) = key new := by
  rw [merged]
  split
  case h_1 => rfl
  case h_2 row hrow => exact hupdate row (lookupKey_eq_some hrow).2

theorem nodup_upsert (hnd : (rows.map key).Nodup) : ((upsert key update new rows).map key).Nodup := by
  refine ((upsert_perm hnd).map key).nodup_iff.mpr ?_
  rw [List.map_cons, List.nodup_cons, key_merged hupdate]
  refine ⟨fun hmem => ?_, hnd.sublist (List.filter_sublist.map key)⟩
  obtain ⟨row, hrow, hkey⟩ := List.mem_map.mp hmem
  exact of_decide_eq_true (List.mem_filter.mp hrow).2 hkey

theorem lookupKey_upsert (k : κ) : lookupKey key k (upsert key update new rows) =
    if k = key new then some (merged key update new rows) else lookupKey key k rows := by
  induction rows with
  | nil => simp [upsert, lookupKey, merged, eq_comm]
  | cons row rows ih =>
    rw [upsert]
    by_cases heq : key row = key new
    · rw [if_pos heq]
      have hkey := hupdate row heq
      by_cases hk : k = key new
      · subst hk
        simp [lookupKey, merged, heq, hkey]
      · simp [lookupKey, hkey, heq, hk, Ne.symm hk]
    · rw [if_neg heq]
      have hmerged : merged key update new (row :: rows) = merged key update new rows := by
        simp [merged, lookupKey, heq]
      rw [hmerged]
      by_cases hk : key row = k
      · have hne : k ≠ key new := fun h => heq (hk.trans h)
        simp [lookupKey, hk, hne]
      · rw [lookupKey, List.find?_cons_of_neg (by simpa using hk)]
        rw [lookupKey] at ih
        rw [ih, lookupKey, lookupKey, List.find?_cons_of_neg (by simpa using hk)]

theorem mem_keys_upsert {k : κ} (h : k ∈ (upsert key update new rows).map key) : k = key new ∨ k ∈ rows.map key := by
  by_contra hne
  rw [not_or] at hne
  refine lookupKey_eq_none.mp ?_ h
  rw [lookupKey_upsert hupdate, if_neg hne.1]
  exact lookupKey_eq_none.mpr hne.2

end

/-! ## Tables up to their order -/

section
variable {update : ρ → ρ → ρ} {new : ρ}

theorem lookupKey_perm {rows rows' : List ρ} (hnd : (rows.map key).Nodup) (h : rows.Perm rows') (k : κ) :
    lookupKey key k rows = lookupKey key k rows' := by
  cases hrow : lookupKey key k rows' with
  | some row =>
    obtain ⟨hmem, rfl⟩ := lookupKey_eq_some hrow
    exact lookupKey_of_mem hnd (h.mem_iff.mpr hmem)
  | none =>
    rw [lookupKey_eq_none] at hrow ⊢
    rwa [(h.map key).mem_iff]

theorem upsert_congr_perm {rows rows' : List ρ} (hnd : (rows.map key).Nodup) (h : rows.Perm rows') :
    (upsert key update new rows).Perm (upsert key update new rows') := by
  have hmerged : merged key update new rows = merged key update new rows' := by
    rw [merged, merged, lookupKey_perm hnd h]
  refine (upsert_perm hnd).trans (List.Perm.trans ?_ (upsert_perm ((h.map key).nodup_iff.mp hnd)).symm)
  rw [hmerged]
  exact (h.filter _).cons _

/-- An upsert of a key that the rows at the back do not have. -/
theorem perm_upsert_append {front back : List ρ} (h : key new ∉ back.map key) :
    (upsert key update new (front ++ back)).Perm (upsert key update new front ++ back) := by
  induction front with
  | nil =>
    show (upsert key update new back).Perm (new :: back)
    induction back with
    | nil => exact List.Perm.refl _
    | cons row back ih =>
      rw [List.map_cons, List.mem_cons, not_or] at h
      rw [upsert, if_neg (Ne.symm h.1)]
      exact ((ih h.2).cons row).trans (List.Perm.swap ..)
  | cons row front ih =>
    rw [List.cons_append, upsert, upsert]
    split
    · exact List.Perm.refl _
    · exact ih.cons row

/-- An upsert of the images of the rows. -/
theorem upsert_map {τ : Type} {f : ρ → τ} {key' : τ → κ} {update' : τ → τ → τ} (hkey : ∀ row, key' (f row) = key row)
    (hupdate : ∀ row, f (update row new) = update' (f row) (f new)) (rows : List ρ) :
    (upsert key update new rows).map f = upsert key' update' (f new) (rows.map f) := by
  induction rows with
  | nil => rfl
  | cons row rows ih =>
    rw [List.map_cons, upsert, upsert, hkey, hkey]
    split
    · rw [List.map_cons, hupdate]
    · rw [List.map_cons, ih]

end

/-! ## Grouping -/

theorem mem_groupRows {group : List ρ} (h : (k, group) ∈ groupRows key rows) :
    group = rows.filter fun row => key row = k := by
  obtain ⟨_, -, heq⟩ := List.mem_map.mp h
  obtain ⟨rfl, rfl⟩ := Prod.mk.inj heq
  rfl

end

end Zenith.Rows
