import Mathlib

/-!
# Comparators and extrema

A comparator is a function `α → α → Ordering`. `maxBy?` and `minBy?` fold one over a list the way
`Iterator::max_by` and `Iterator::min_by` do: of elements that compare equal, the last is the
maximum and the first is the minimum. Nothing is assumed of the comparator, so these functions are
defined, and return a member, for inconsistent comparators too.

`StrictOrderOn` is what sorting and maximising need of a comparator. Under it the maximum is beaten
by no member (`StrictOrderOn.unbeaten`).

An antisymmetric comparator fails to be transitive exactly by a `Cycle` of three. A cycle of a
comparator that refines a consistent one stays inside one class of the latter (`Cycle.outer_eq`).
-/

namespace Zenith.Comparators

open Std

variable {α κ : Type}

/-! ## Extrema -/

/-- `Iterator::max_by`. -/
def maxBy? (cmp : α → α → Ordering) : List α → Option α
  | [] => none
  | x :: xs => some (xs.foldl (fun best y => if cmp best y = .gt then best else y) x)

/-- `Iterator::min_by`. -/
def minBy? (cmp : α → α → Ordering) : List α → Option α
  | [] => none
  | x :: xs => some (xs.foldl (fun best y => if cmp best y = .gt then y else best) x)

theorem foldl_choice_mem (choose : α → α → Bool) (xs : List α) (x : α) :
    xs.foldl (fun best y => if choose best y then best else y) x ∈ x :: xs := by
  induction xs generalizing x with
  | nil => simp
  | cons y ys ih =>
    simp only [List.foldl_cons]
    by_cases h : choose x y
    · simp only [h, if_true]
      rcases List.mem_cons.mp (ih x) with he | he
      · rw [he]
        exact List.mem_cons_self
      · exact List.mem_cons_of_mem _ (List.mem_cons_of_mem _ he)
    · simp only [h]
      exact List.mem_cons_of_mem _ (ih y)

variable {cmp : α → α → Ordering} {l : List α}

theorem maxBy?_mem {m : α} (h : maxBy? cmp l = some m) :
    m ∈ l := by
  cases l with
  | nil => cases h
  | cons x xs =>
    rw [← Option.some.inj h]
    simpa using foldl_choice_mem (fun best y => decide (cmp best y = .gt)) xs x

@[simp] theorem maxBy?_eq_none :
    maxBy? cmp l = none ↔ l = [] := by
  cases l <;> simp [maxBy?]

/-! ## Strict orders -/

/-- On the members of `l` the comparator is a strict total order of the keys: reversing the
arguments reverses the answer, members with distinct keys never compare equal, and `gt` is
transitive. -/
structure StrictOrderOn (cmp : α → α → Ordering) (key : α → κ) (l : List α) : Prop where
  swap : ∀ a ∈ l, ∀ b ∈ l, cmp a b = (cmp b a).swap
  distinct : ∀ a ∈ l, ∀ b ∈ l, key a ≠ key b → cmp a b ≠ .eq
  trans : ∀ a ∈ l, ∀ b ∈ l, ∀ c ∈ l, cmp a b = .gt → cmp b c = .gt → cmp a c = .gt

/-- Reversing and distinctness make every two members with distinct keys comparable. -/
theorem gt_of_not_gt {a b : α} (hswap : cmp b a = (cmp a b).swap)
    (hne : cmp a b ≠ .eq) (hgt : cmp a b ≠ .gt) : cmp b a = .gt := by
  rw [hswap]
  cases h : cmp a b with
  | lt => rfl
  | eq => exact absurd h hne
  | gt => exact absurd h hgt

/-- The maximum under a strict order is beaten by no member. -/
theorem StrictOrderOn.unbeaten {key : α → κ}
    (h : StrictOrderOn cmp key l) (hnd : (l.map key).Nodup) {m : α} (hm : maxBy? cmp l = some m) :
    ∀ a ∈ l, cmp a m ≠ .gt := by
  cases l with
  | nil => cases hm
  | cons x xs =>
    rw [← Option.some.inj hm]
    clear hm
    induction xs generalizing x with
    | nil =>
      intro a ha hgt
      rw [List.mem_singleton.mp ha] at hgt
      have hs := h.swap x List.mem_cons_self x List.mem_cons_self
      simp only [List.foldl_nil] at hgt
      rw [hgt] at hs
      cases hs
    | cons y ys ih =>
      have hx : x ∈ x :: y :: ys := by simp
      have hy : y ∈ x :: y :: ys := by simp
      simp only [List.map_cons, List.nodup_cons, List.mem_cons, not_or] at hnd
      have hxy : key x ≠ key y := hnd.1.1
      -- `best` stays for the rest of the fold, `out` has just lost to it.
      have key_step : ∀ best out, best ∈ x :: y :: ys → out ∈ x :: y :: ys →
          cmp best out = .gt → ((best :: ys).map key).Nodup → (∀ a ∈ best :: ys, a ∈ x :: y :: ys) →
          ∀ a, a = out ∨ a ∈ best :: ys →
            cmp a (ys.foldl (fun best y => if cmp best y = .gt then best else y) best) ≠ .gt := by
        intro best out hb ho hbo hnd' hsub a ha
        have hsub' : StrictOrderOn cmp key (best :: ys) :=
          ⟨fun a ha b hb => h.swap a (hsub a ha) b (hsub b hb),
            fun a ha b hb => h.distinct a (hsub a ha) b (hsub b hb),
            fun a ha b hb c hc => h.trans a (hsub a ha) b (hsub b hb) c (hsub c hc)⟩
        have ih' := ih best hsub' hnd'
        rcases ha with rfl | ha
        · intro hgt
          have hmem := foldl_choice_mem (fun best y => decide (cmp best y = .gt)) ys best
          simp only [decide_eq_true_eq] at hmem
          exact ih' best List.mem_cons_self
            (h.trans best hb a ho _ (hsub _ hmem) hbo hgt)
        · exact ih' a ha
      intro a ha
      simp only [List.foldl_cons]
      by_cases hgt : cmp x y = .gt
      · rw [if_pos hgt]
        refine key_step x y hx hy hgt ?_ ?_ a ?_
        · rw [List.map_cons, List.nodup_cons]
          exact ⟨hnd.1.2, hnd.2.2⟩
        · intro a ha
          rcases List.mem_cons.mp ha with rfl | ha
          · exact hx
          · simp [ha]
        · simp only [List.mem_cons] at ha ⊢
          tauto
      · rw [if_neg hgt]
        have hyx : cmp y x = .gt :=
          gt_of_not_gt (h.swap y hy x hx) (h.distinct x hx y hy hxy) hgt
        refine key_step y x hy hx hyx ?_ ?_ a ?_
        · rw [List.map_cons, List.nodup_cons]
          exact hnd.2
        · intro a ha
          exact List.mem_cons_of_mem _ ha
        · simp only [List.mem_cons] at ha ⊢
          tauto

/-! ## Cycles -/

/-- `a` beats `b`, `b` beats `c` and `c` beats `a`. -/
structure Cycle (cmp : α → α → Ordering) (a b c : α) : Prop where
  first : cmp a b = .gt
  second : cmp b c = .gt
  third : cmp c a = .gt

variable {a b c : α}

theorem Cycle.rotate (h : Cycle cmp a b c) :
    Cycle cmp b c a :=
  ⟨h.second, h.third, h.first⟩

/-- Without cycles, an antisymmetric comparator that separates the keys is a strict order. -/
theorem StrictOrderOn.of_no_cycle {key : α → κ}
    (hnd : (l.map key).Nodup) (hswap : ∀ a ∈ l, ∀ b ∈ l, cmp a b = (cmp b a).swap)
    (hdistinct : ∀ a ∈ l, ∀ b ∈ l, key a ≠ key b → cmp a b ≠ .eq)
    (hcycle : ∀ a ∈ l, ∀ b ∈ l, ∀ c ∈ l, ¬ Cycle cmp a b c) : StrictOrderOn cmp key l where
  swap := hswap
  distinct := hdistinct
  trans := by
    intro a ha b hb c hc hab hbc
    by_contra hac
    by_cases hkey : key a = key c
    · obtain rfl : a = c := List.inj_on_of_nodup_map hnd ha hc hkey
      rw [hswap a ha b hb, hbc] at hab
      cases hab
    · have hca := gt_of_not_gt (hswap c hc a ha) (hdistinct a ha c hc hkey) hac
      exact hcycle a ha b hb c hc ⟨hab, hbc, hca⟩

/-- A consistent comparator has no cycle. -/
theorem not_cycle_of_transCmp [TransCmp cmp] :
    ¬ Cycle cmp a b c := by
  rintro ⟨hab, hbc, hca⟩
  have hac := TransCmp.gt_trans hab hbc
  have hswap : cmp a c = (cmp c a).swap := OrientedCmp.eq_swap
  rw [hac, hca] at hswap
  cases hswap

theorem then_congr {o a b : Ordering} (h : o = .eq → a = b) : o.then a = o.then b := by
  cases o with
  | lt => rfl
  | eq => exact h rfl
  | gt => rfl

theorem isGE_of_then_eq_gt {o a : Ordering} (h : o.then a = .gt) : o.isGE := by
  rcases Ordering.then_eq_gt.mp h with h | ⟨h, _⟩ <;> rw [h] <;> rfl

/-- A cycle of a refined comparator stays inside one class of the consistent comparator it
refines. -/
theorem Cycle.outer_eq {outer inner : α → α → Ordering} [TransCmp outer]
    (h : Cycle (fun x y => (outer x y).then (inner x y)) a b c) :
    outer a b = .eq ∧ outer b c = .eq ∧ outer c a = .eq := by
  -- One link that wins by the outer comparator would make the way round win by it.
  have hlink : ∀ {x y z : α}, Cycle (fun x y => (outer x y).then (inner x y)) x y z →
      outer x y = .eq := by
    intro x y z hxyz
    rcases Ordering.then_eq_gt.mp hxyz.first with hgt | ⟨heq, _⟩
    · have hxz := TransCmp.gt_of_gt_of_isGE hgt (isGE_of_then_eq_gt hxyz.second)
      have hzx := isGE_of_then_eq_gt hxyz.third
      have hswap : outer z x = (outer x z).swap := OrientedCmp.eq_swap
      rw [hswap, hxz] at hzx
      cases hzx
    · exact heq
  exact ⟨hlink h, hlink h.rotate, hlink h.rotate.rotate⟩

end Zenith.Comparators
