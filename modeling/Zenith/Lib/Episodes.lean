import Mathlib

/-!
# Episodes

A condition holds, stops and holds again. Each episode has an id: it is drawn by the observation with which the
condition begins to hold, and kept until the condition stops. Steps that observe nothing leave all as it is.

An id says which observation began its episode (`began`), so episodes with a gap between them have different ids
when the observations draw different ones (`ids_ne`).
-/

namespace Zenith.Episodes

variable {Id : Type*}

/-- The id after an observation. -/
def observe (old : Option Id) (holds : Bool) (new : Id) : Option Id :=
  if holds then old.or (some new) else none

/-- A condition and its id, before and after each of `n` steps. Step `i` would draw `drawn i`. -/
structure Recorded (observed : Nat → Prop) (holds : Nat → Bool) (ids : Nat → Option Id) (drawn : Nat → Id) (n : Nat) :
    Prop where
  start : holds 0 = false ∧ ids 0 = none
  kept : ∀ i < n, ¬observed i → holds (i + 1) = holds i ∧ ids (i + 1) = ids i
  observes : ∀ i < n, observed i → ids (i + 1) = observe (ids i) (holds (i + 1)) (drawn i)

section
variable {observed : Nat → Prop} {holds : Nat → Bool} {ids : Nat → Option Id} {drawn : Nat → Id} {n : Nat}

theorem isSome_observe (old : Option Id) (holds : Bool) (new : Id) : (observe old holds new).isSome = holds := by
  cases holds with
  | false => rfl
  | true =>
    rw [observe, if_pos rfl, Option.isSome_or, Option.isSome_some, Bool.or_true]

/-- There is an id while the condition holds. -/
theorem isSome_ids (h : Recorded observed holds ids drawn n) {i : Nat} (hi : i ≤ n) : (ids i).isSome = holds i := by
  induction i with
  | zero => rw [h.start.1, h.start.2, Option.isSome_none]
  | succ i ih =>
    by_cases hobserved : observed i
    · rw [h.observes i hi hobserved]
      exact isSome_observe _ _ _
    · rw [(h.kept i hi hobserved).1, (h.kept i hi hobserved).2]
      exact ih (Nat.le_of_succ_le hi)

/-- A step within an episode keeps its id. -/
theorem ids_succ (h : Recorded observed holds ids drawn n) {i : Nat} (hi : i < n) (hbefore : holds i = true)
    (hafter : holds (i + 1) = true) : ids (i + 1) = ids i := by
  by_cases hobserved : observed i
  · have hsome : (ids i).isSome = true := (isSome_ids h (Nat.le_of_lt hi)).trans hbefore
    obtain ⟨id, hid⟩ := Option.isSome_iff_exists.mp hsome
    rw [h.observes i hi hobserved, hafter, hid]
    rfl
  · exact (h.kept i hi hobserved).2

/-- An episode has one id. -/
theorem ids_eq (h : Recorded observed holds ids drawn n) {i j : Nat} (hij : i ≤ j) (hj : j ≤ n)
    (hholds : ∀ m, i ≤ m → m ≤ j → holds m = true) : ids j = ids i := by
  induction j, hij using Nat.le_induction with
  | base => rfl
  | succ j hij ih =>
    have hbefore : holds j = true := hholds j hij (Nat.le_succ j)
    have hafter : holds (j + 1) = true := hholds (j + 1) (Nat.le_succ_of_le hij) (Nat.le_refl _)
    rw [ids_succ h hj hbefore hafter]
    exact ih (Nat.le_of_succ_le hj) fun m him hmj => hholds m him (Nat.le_succ_of_le hmj)

/-- The observation that began the episode drew its id. -/
theorem began (h : Recorded observed holds ids drawn n) {i : Nat} (hi : i ≤ n) {id : Id} (hid : ids i = some id) :
    ∃ k < i, observed k ∧ id = drawn k ∧ ∀ m, k < m → m ≤ i → holds m = true := by
  induction i with
  | zero =>
    rw [h.start.2] at hid
    exact nomatch hid
  | succ i ih =>
    have hafter : holds (i + 1) = true := by
      rw [← isSome_ids h hi, hid, Option.isSome_some]
    -- The episode goes on, unless this step observes that it begins.
    have hon : ids i = some id → ∃ k < i + 1, observed k ∧ id = drawn k ∧
        ∀ m, k < m → m ≤ i + 1 → holds m = true := by
      intro hsame
      obtain ⟨k, hk, hobserved, hdrawn, hholds⟩ := ih (Nat.le_of_succ_le hi) hsame
      refine ⟨k, Nat.lt_succ_of_lt hk, hobserved, hdrawn, fun m hkm hm => ?_⟩
      rcases Nat.le_succ_iff.mp hm with hm | rfl
      · exact hholds m hkm hm
      · exact hafter
    by_cases hobserved : observed i
    · have hnext := h.observes i hi hobserved
      rw [hafter, observe, if_pos rfl, hid] at hnext
      cases hold : ids i with
      | some old =>
        rw [hold] at hnext
        exact hon (hold.trans hnext.symm)
      | none =>
        rw [hold] at hnext
        refine ⟨i, Nat.lt_succ_self i, hobserved, Option.some.inj hnext, fun m him hm => ?_⟩
        rwa [Nat.le_antisymm hm him]
    · exact hon ((h.kept i hi hobserved).2.symm.trans hid)

/-- Two episodes with a gap between them have different ids. -/
theorem ids_ne (h : Recorded observed holds ids drawn n)
    (hdrawn : ∀ k l, k < l → l < n → observed k → observed l → holds (k + 1) = true → holds (l + 1) = true →
      drawn k ≠ drawn l) {i m j : Nat} (him : i ≤ m) (hmj : m ≤ j) (hj : j ≤ n) (hgap : holds m = false) {id id' : Id}
    (hid : ids i = some id) (hid' : ids j = some id') : id ≠ id' := by
  obtain ⟨k, hk, hobserved, rfl, hholds'⟩ := began h (him.trans (hmj.trans hj)) hid
  obtain ⟨l, hl, hobserved', rfl, hholds⟩ := began h hj hid'
  have hml : m ≤ l := by
    by_contra hlm
    rw [hholds m (not_le.mp hlm) hmj] at hgap
    exact nomatch hgap
  exact hdrawn k l (hk.trans_le (him.trans hml)) (hl.trans_le hj) hobserved hobserved'
    (hholds' (k + 1) (Nat.lt_succ_self k) hk) (hholds (l + 1) (Nat.lt_succ_self l) hl)

end

end Zenith.Episodes
