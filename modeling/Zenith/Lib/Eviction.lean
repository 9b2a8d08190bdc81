import Zenith.Lib.Expiry

/-!
# Making room

A table with a weight for each entry, and a rule that says when it is crowded. `Evicts` is what making
room means: as long as the table is crowded an entry that was touched longest ago goes. Nothing else
goes, and the table that is left is not crowded.
-/

namespace Zenith.Eviction

open Std Zenith.Comparators Zenith.Tables

section
variable {κ ν : Type} {cmp : κ → κ → Ordering} [TransCmp cmp] [LawfulEqCmp cmp]

/-! ## Weights -/

/-- The weight of a table. -/
def weight (f : ν → Nat) (t : ExtTreeMap κ ν cmp) : Nat := ((valuesOf t).map f).sum

variable {t : ExtTreeMap κ ν cmp} {k : κ}

/-- The entries of a table, one of them first. -/
theorem perm_erase [DecidableEq κ] {v : ν} (h : t[k]? = some v) :
    t.toList.Perm ((k, v) :: (t.erase k).toList) := by
  refine (List.perm_ext_iff_of_nodup (nodup_toList t) ?_).mpr fun entry => ?_
  · refine List.nodup_cons.mpr ⟨fun hmem => ?_, nodup_toList _⟩
    rw [ExtTreeMap.mem_toList_iff_getElem?_eq_some, getElem?_erase_ite, if_pos rfl] at hmem
    exact nomatch hmem
  · obtain ⟨j, w⟩ := entry
    rw [List.mem_cons, ExtTreeMap.mem_toList_iff_getElem?_eq_some,
      ExtTreeMap.mem_toList_iff_getElem?_eq_some, getElem?_erase_ite, Prod.mk.injEq]
    by_cases hkey : k = j
    · rw [if_pos hkey, ← hkey, h]
      exact ⟨fun hw => .inl ⟨rfl, (Option.some.inj hw).symm⟩, by
        rintro (⟨-, rfl⟩ | hno)
        · rfl
        · exact nomatch hno⟩
    · rw [if_neg hkey]
      exact ⟨.inr, fun hor => hor.resolve_left fun heq => hkey heq.1.symm⟩

theorem weight_erase [DecidableEq κ] (f : ν → Nat) {v : ν}
    (h : t[k]? = some v) : weight f (t.erase k) + f v = weight f t := by
  have hperm := ((perm_erase h).map Prod.snd).map f
  rw [weight, weight, valuesOf, valuesOf, hperm.sum_eq, List.map_cons, List.map_cons, List.sum_cons,
    Nat.add_comm]

theorem weight_insert [DecidableEq κ] (f : ν → Nat)
    (h : t[k]? = none) (v : ν) : weight f (t.insert k v) = weight f t + f v := by
  have hget : (t.insert k v)[k]? = some v := by rw [getElem?_insert_ite, if_pos rfl]
  have herase : (t.insert k v).erase k = t := by
    refine ExtTreeMap.ext_getElem? fun j => ?_
    rw [getElem?_erase_ite, getElem?_insert_ite]
    split
    case isTrue heq => rw [← heq, h]
    case isFalse => rfl
  rw [← weight_erase f hget, herase]

omit [LawfulEqCmp cmp] in
theorem weight_filter_le (f : ν → Nat) (t : ExtTreeMap κ ν cmp) (p : κ → ν → Bool) :
    weight f (t.filter p) ≤ weight f t := by
  rw [weight, weight, valuesOf, valuesOf, ExtTreeMap.toList_filter, List.map_map, List.map_map]
  exact (List.Sublist.map _ List.filter_sublist).sum_le_sum fun _ _ => Nat.zero_le _

omit [LawfulEqCmp cmp] in
/-- Nothing is in a table without entries. -/
theorem weight_of_size {f : ν → Nat} (h : t.size = 0) : weight f t = 0 := by
  have hlist : t.toList = [] := List.length_eq_zero_iff.mp (ExtTreeMap.length_toList.trans h)
  rw [weight, valuesOf, hlist]
  rfl

/-! ## Making room -/

/-- The entry that was touched longest ago: the first one in key order. -/
def oldest? (touched : ν → Nat) (t : ExtTreeMap κ ν cmp) : Option (κ × ν) :=
  minBy? (compareOn fun entry => touched entry.2) t.toList

theorem oldest?_eq_some {touched : ν → Nat} {v : ν}
    (h : oldest? touched t = some (k, v)) :
    t[k]? = some v ∧ ∀ (j : κ) (w : ν), t[j]? = some w → touched v ≤ touched w := by
  obtain ⟨hmem, hleast⟩ := Expiry.minBy?_spec h
  refine ⟨ExtTreeMap.mem_toList_iff_getElem?_eq_some.mp hmem, fun j w hj => ?_⟩
  exact Nat.isLE_compare.mp (hleast (j, w) (ExtTreeMap.mem_toList_iff_getElem?_eq_some.mpr hj))

omit [LawfulEqCmp cmp] in
theorem oldest?_isSome {touched : ν → Nat} (h : t.size ≠ 0) :
    ∃ entry, oldest? touched t = some entry := by
  have hlen : t.toList.length = t.size := ExtTreeMap.length_toList
  cases hlist : t.toList with
  | nil =>
    rw [hlist] at hlen
    exact absurd hlen.symm h
  | cons entry entries => exact ⟨_, by rw [oldest?, hlist, minBy?]⟩

/-- As long as the table is crowded, an entry that was touched longest ago goes. -/
inductive Evicts (crowded : ExtTreeMap κ ν cmp → Prop) (touched : ν → Nat) :
    ExtTreeMap κ ν cmp → List κ → ExtTreeMap κ ν cmp → Prop
  | settled {t : ExtTreeMap κ ν cmp} : ¬ crowded t → Evicts crowded touched t [] t
  | evict {t t' : ExtTreeMap κ ν cmp} {victims : List κ} {k : κ} {v : ν} : crowded t →
      t[k]? = some v → (∀ (j : κ) (w : ν), t[j]? = some w → touched v ≤ touched w) →
      Evicts crowded touched (t.erase k) victims t' → Evicts crowded touched t (k :: victims) t'

variable {crowded : ExtTreeMap κ ν cmp → Prop} {touched : ν → Nat} {t t' : ExtTreeMap κ ν cmp}
  {victims : List κ}

omit [LawfulEqCmp cmp] in
theorem Evicts.not_crowded (h : Evicts crowded touched t victims t') : ¬ crowded t' := by
  induction h with
  | settled hroom => exact hroom
  | evict _ _ _ _ ih => exact ih

/-- What is left is what was there. -/
theorem Evicts.getElem? [DecidableEq κ] (h : Evicts crowded touched t victims t') (k : κ) :
    t'[k]? = none ∨ t'[k]? = t[k]? := by
  induction h with
  | settled => exact .inr rfl
  | @evict t t' victims j v _ _ _ _ ih =>
    rw [getElem?_erase_ite] at ih
    split at ih
    · exact .inl (or_self_iff.mp ih)
    · exact ih

end

end Zenith.Eviction
