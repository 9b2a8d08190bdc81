import Mathlib

/-!
# Finite tables

Ordered maps are `Std.ExtTreeMap`: extensional, so that two tables with the same entries are
equal, and executable. `Table` is keyed by one ordered type, `PairTable` by a pair compared
lexicographically. This module adds what counting over such tables needs:

* `satAdd`, the saturating addition of a `w`-bit counter, and the sum it computes over a list
  (`foldl_satAdd`);
* `bump` and `unbump`, which add to and take one off the counter filed under a key, and `tally`,
  which adds up a list of (key, amount) pairs;
* `row`, the entries of a `PairTable` under one first component (`row_perm`);
* `countP_eq_others_add`, counting the other members of a list with distinct keys;
* `sum_fibers`, the counters of a table that counts a list by key add up to its length.

`mem_of_mapM` says where the results of a traversal that may fail come from, and `bind_eq_ok` what a
computation that may fail went through.
-/

namespace Zenith.Tables

open Std

/-- Every result of a successful traversal is the result of one of the elements. -/
theorem mem_of_mapM {α β : Type} {f : α → Option β} {l : List α} {ys : List β}
    (h : l.mapM f = some ys) {y : β} (hy : y ∈ ys) : ∃ x ∈ l, f x = some y := by
  induction l generalizing ys with
  | nil =>
    obtain rfl : [] = ys := by simpa using h
    cases hy
  | cons a l ih =>
    simp only [List.mapM_cons, Option.bind_eq_bind, Option.bind_eq_some_iff, Option.pure_def,
      Option.some.injEq] at h
    obtain ⟨b, hb, rest, hrest, rfl⟩ := h
    rcases List.mem_cons.mp hy with rfl | hmem
    · exact ⟨a, List.mem_cons_self, hb⟩
    · obtain ⟨x, hx, hfx⟩ := ih hrest hmem
      exact ⟨x, List.mem_cons_of_mem a hx, hfx⟩

/-- What got past a check passed it. -/
theorem ok_of_ite_error {ε α : Type} {c : Prop} [Decidable c] {e : ε} {rest : Except ε α} {a : α}
    (h : (if c then .error e else rest) = .ok a) : ¬c ∧ rest = .ok a := by
  split at h
  case isTrue => exact nomatch h
  case isFalse hc => exact ⟨hc, h⟩

theorem bind_eq_ok {ε α β : Type} {x : Except ε α} {f : α → Except ε β} {b : β} :
    (x >>= f) = .ok b ↔ ∃ a, x = .ok a ∧ f a = .ok b := by
  cases x with
  | error e => exact ⟨nofun, nofun⟩
  | ok a =>
    constructor
    · intro h
      exact ⟨a, rfl, h⟩
    · rintro ⟨_, ⟨⟩, h⟩
      exact h

/-- A traversal by a function that checks its argument. -/
theorem mapM_eq_ok {ε α β : Type} {f : α → Except ε β} {g : α → β} {p : α → Prop}
    (hf : ∀ x y, f x = .ok y ↔ y = g x ∧ p x) {xs : List α} {ys : List β} :
    xs.mapM f = .ok ys ↔ ys = xs.map g ∧ ∀ x ∈ xs, p x := by
  induction xs generalizing ys with
  | nil => exact ⟨fun h => ⟨(Except.ok.inj h).symm, fun x hx => (nomatch hx)⟩, fun h => congrArg Except.ok h.1.symm⟩
  | cons x xs ih =>
    rw [List.mapM_cons]
    constructor
    · intro h
      obtain ⟨y, hy, h⟩ := bind_eq_ok.mp h
      obtain ⟨rest, hrest, h⟩ := bind_eq_ok.mp h
      obtain rfl := Except.ok.inj h
      obtain ⟨rfl, hx⟩ := (hf x y).mp hy
      obtain ⟨rfl, hxs⟩ := ih.mp hrest
      exact ⟨rfl, List.forall_mem_cons.mpr ⟨hx, hxs⟩⟩
    · rintro ⟨rfl, h⟩
      obtain ⟨hx, hxs⟩ := List.forall_mem_cons.mp h
      exact bind_eq_ok.mpr ⟨g x, (hf x _).mpr ⟨rfl, hx⟩, bind_eq_ok.mpr ⟨_, ih.mpr ⟨rfl, hxs⟩, rfl⟩⟩

theorem forM_eq_ok {ε α : Type} {f : α → Except ε Unit} {xs : List α} :
    xs.forM f = .ok () ↔ ∀ x ∈ xs, f x = .ok () := by
  induction xs with
  | nil => exact ⟨fun _ x hx => (nomatch hx), fun _ => rfl⟩
  | cons x xs ih =>
    rw [List.forall_mem_cons, ← ih]
    show (f x >>= fun _ => xs.forM f) = .ok () ↔ _
    constructor
    · intro h
      obtain ⟨_, hx, hxs⟩ := bind_eq_ok.mp h
      exact ⟨hx, hxs⟩
    · rintro ⟨hx, hxs⟩
      exact bind_eq_ok.mpr ⟨(), hx, hxs⟩

/-! ## Saturating counters -/

/-- `saturating_add` on `w`-bit unsigned integers. -/
def satAdd (w a b : Nat) : Nat := min (a + b) (2 ^ w - 1)

/-- `abs_diff` on unsigned integers. -/
def absDiff (a b : Nat) : Nat := (a - b) + (b - a)

theorem satAdd_of_lt {w a b : Nat} (h : a + b < 2 ^ w) : satAdd w a b = a + b := by
  unfold satAdd
  omega

theorem satAdd_le {w a b : Nat} : satAdd w a b ≤ a + b := by
  unfold satAdd
  omega

theorem satAdd_lt (w a b : Nat) : satAdd w a b < 2 ^ w := by
  have hpos : 0 < 2 ^ w := Nat.two_pow_pos w
  exact Nat.lt_of_le_of_lt (Nat.min_le_right _ _) (Nat.sub_lt hpos Nat.one_pos)

theorem le_satAdd {w a : Nat} (h : a < 2 ^ w) (b : Nat) : a ≤ satAdd w a b :=
  Nat.le_min.mpr ⟨Nat.le_add_right a b, Nat.le_sub_one_of_lt h⟩

/-- Adding up a list with saturation gives its sum, cut at the largest counter value. -/
theorem foldl_satAdd (w a : Nat) (l : List Nat) (ha : a ≤ 2 ^ w - 1) :
    l.foldl (satAdd w) a = min (a + l.sum) (2 ^ w - 1) := by
  induction l generalizing a with
  | nil => simp [ha]
  | cons x l ih =>
    rw [List.foldl_cons, ih _ (by unfold satAdd; omega), List.sum_cons]
    unfold satAdd
    omega

/-! ## Tables -/

/-- A map with ordered keys. -/
abbrev Table (κ ν : Type) [Ord κ] := ExtTreeMap κ ν compare

/-- The lexicographic comparison of pairs. -/
abbrev comparePair {α β : Type} [Ord α] [Ord β] : α × β → α × β → Ordering :=
  compareLex (compareOn Prod.fst) (compareOn Prod.snd)

/-- A map keyed by pairs. -/
abbrev PairTable (α β ν : Type) [Ord α] [Ord β] := ExtTreeMap (α × β) ν comparePair

instance {α β : Type} [Ord α] [Ord β] [TransOrd α] [TransOrd β] [LawfulEqOrd α] [LawfulEqOrd β] :
    LawfulEqCmp (@comparePair α β _ _) where
  compare_self := by intro a; simp [comparePair, compareLex, compareOn]
  eq_of_compare := by
    intro a b h
    simp only [comparePair, compareLex, compareOn, Ordering.then_eq_eq] at h
    exact Prod.ext (LawfulEqCmp.eq_of_compare h.1) (LawfulEqCmp.eq_of_compare h.2)

section
variable {κ ν : Type} {cmp : κ → κ → Ordering} [TransCmp cmp] [LawfulEqCmp cmp]

/-- The values of a table in key order. -/
def valuesOf (t : ExtTreeMap κ ν cmp) : List ν := t.toList.map Prod.snd

variable {t : ExtTreeMap κ ν cmp} {v : ν}

theorem mem_valuesOf :
    v ∈ valuesOf t ↔ ∃ k : κ, t[k]? = some v := by
  simp only [valuesOf, List.mem_map, Prod.exists, exists_eq_right]
  exact exists_congr fun k => ExtTreeMap.mem_toList_iff_getElem?_eq_some

theorem nodup_keys_toList (t : ExtTreeMap κ ν cmp) : (t.toList.map Prod.fst).Nodup := by
  have h := t.ordered_keys_toList
  rw [List.Nodup, List.pairwise_map]
  refine h.imp ?_
  intro a b hab heq
  rw [heq, @ReflCmp.compare_self _ cmp] at hab
  cases hab

theorem nodup_toList (t : ExtTreeMap κ ν cmp) : t.toList.Nodup :=
  (nodup_keys_toList t).of_map

theorem map_insert {ν' : Type} (t : ExtTreeMap κ ν cmp) (f : ν → ν') (k : κ) (v : ν) :
    (t.insert k v).map (fun _ v => f v) = (t.map fun _ v => f v).insert k (f v) := by
  refine ExtTreeMap.ext_getElem? fun j => ?_
  rw [ExtTreeMap.getElem?_map, ExtTreeMap.getElem?_insert, ExtTreeMap.getElem?_insert,
    ExtTreeMap.getElem?_map]
  split <;> rfl

theorem map_erase {ν' : Type} (t : ExtTreeMap κ ν cmp) (f : ν → ν') (k : κ) :
    (t.erase k).map (fun _ v => f v) = (t.map fun _ v => f v).erase k := by
  refine ExtTreeMap.ext_getElem? fun j => ?_
  rw [ExtTreeMap.getElem?_map, ExtTreeMap.getElem?_erase, ExtTreeMap.getElem?_erase,
    ExtTreeMap.getElem?_map]
  split <;> rfl

theorem getElem?_insert_ite [DecidableEq κ] (t : ExtTreeMap κ ν cmp) (k : κ) (v : ν) (j : κ) :
    (t.insert k v)[j]? = if k = j then some v else t[j]? := by
  rw [ExtTreeMap.getElem?_insert]
  exact if_congr LawfulEqCmp.compare_eq_iff_eq rfl rfl

theorem getElem?_erase_ite [DecidableEq κ] (t : ExtTreeMap κ ν cmp) (k j : κ) :
    (t.erase k)[j]? = if k = j then none else t[j]? := by
  rw [ExtTreeMap.getElem?_erase]
  exact if_congr LawfulEqCmp.compare_eq_iff_eq rfl rfl

/-- What a table says stays said when it says something new. -/
theorem getElem?_insert_new [DecidableEq κ] {k j : κ} {v w : ν} (hnew : t[k]? = none) (h : t[j]? = some w) :
    (t.insert k v)[j]? = some w := by
  have hne : k ≠ j := fun heq => Option.some_ne_none w (h.symm.trans ((congrArg (t[·]?) heq.symm).trans hnew))
  rw [getElem?_insert_ite, if_neg hne, h]

variable {k : κ}

/-- What was erased is put back. -/
theorem insert_erase (h : t[k]? = some v) : (t.erase k).insert k v = t := by
  refine ExtTreeMap.ext_getElem? fun j => ?_
  rw [ExtTreeMap.getElem?_insert, ExtTreeMap.getElem?_erase]
  split
  case isTrue heq => rw [← h, LawfulEqCmp.eq_of_compare heq]
  case isFalse => rfl

omit [LawfulEqCmp cmp] in
theorem contains_of_getElem? (h : t[k]? = some v) :
    t.contains k = true := by
  rw [← ExtTreeMap.isSome_getElem?_eq_contains, h]
  rfl

omit [LawfulEqCmp cmp] in
/-- Overwriting an entry adds none. -/
theorem size_insert_of_getElem? (h : t[k]? = some v)
    (w : ν) : (t.insert k w).size = t.size := by
  rw [ExtTreeMap.size_insert, if_pos (contains_of_getElem? h)]

/-- Retaining by key keeps exactly the entries whose key passes. -/
theorem isSome_retain {p : κ → Bool} :
    ((t.filter fun key _ => p key)[k]?).isSome ↔ t[k]?.isSome ∧ p k = true := by
  rw [ExtTreeMap.getElem?_filter']
  cases t[k]? with
  | none => simp
  | some v => cases hp : p k <;> simp

end

/-! ## Counting tables -/

section
variable {κ : Type} {cmp : κ → κ → Ordering} [TransCmp cmp] [LawfulEqCmp cmp] [DecidableEq κ]

/-- The counter filed under a key; an absent key counts zero. -/
def counter (t : ExtTreeMap κ Nat cmp) (k : κ) : Nat := t[k]?.getD 0

/-- `entry(k).or_default()` followed by a saturating addition. -/
def bump (w : Nat) (t : ExtTreeMap κ Nat cmp) (k : κ) (n : Nat) : ExtTreeMap κ Nat cmp :=
  t.alter k fun old => some (satAdd w (old.getD 0) n)

theorem getElem?_bump (w : Nat) (t : ExtTreeMap κ Nat cmp) (k j : κ) (n : Nat) :
    (bump w t k n)[j]? = if k = j then some (satAdd w (counter t k) n) else t[j]? := by
  simp [bump, counter, ExtTreeMap.getElem?_alter]

theorem counter_bump (w : Nat) (t : ExtTreeMap κ Nat cmp) (k j : κ) (n : Nat) :
    counter (bump w t k n) j = if k = j then satAdd w (counter t k) n else counter t j := by
  simp only [counter, getElem?_bump]
  split <;> rfl

/-- Takes one off the counter of `k` and drops it when nothing is left. -/
def unbump (t : ExtTreeMap κ Nat cmp) (k : κ) : ExtTreeMap κ Nat cmp :=
  match t[k]? with
  | none => t
  | some n => if n ≤ 1 then t.erase k else t.insert k (n - 1)

theorem counter_unbump (t : ExtTreeMap κ Nat cmp) (k j : κ) :
    counter (unbump t k) j = if k = j then counter t k - 1 else counter t j := by
  unfold unbump
  cases hk : t[k]? with
  | none =>
    by_cases hj : k = j
    · subst hj
      simp [counter, hk]
    · simp [hj]
  | some n =>
    have hn : counter t k = n := by simp [counter, hk]
    rw [hn]
    simp only
    split
    · by_cases hj : k = j
      · subst hj
        simp only [counter, ExtTreeMap.getElem?_erase_self, Option.getD_none, if_true]
        omega
      · simp [counter, ExtTreeMap.getElem?_erase, hj]
    · by_cases hj : k = j
      · subst hj
        simp [counter]
      · simp [counter, ExtTreeMap.getElem?_insert, hj]

/-- Taking one off adds no key. -/
theorem isSome_of_unbump {t : ExtTreeMap κ Nat cmp} {k j : κ}
    (h : (unbump t k)[j]?.isSome) : t[j]?.isSome := by
  unfold unbump at h
  cases hk : t[k]? with
  | none => simpa [hk] using h
  | some n =>
    rw [hk] at h
    by_cases hj : k = j
    · subst hj
      simp [hk]
    · simp only at h
      split at h
      · simpa [ExtTreeMap.getElem?_erase, hj] using h
      · simpa [ExtTreeMap.getElem?_insert, hj] using h

/-- Adds up a list of (key, amount) pairs. -/
def tally (w : Nat) (l : List (κ × Nat)) (t : ExtTreeMap κ Nat cmp) : ExtTreeMap κ Nat cmp :=
  l.foldl (fun t e => bump w t e.1 e.2) t

/-- A tally that never leaves the counter range adds the amounts of each key. -/
theorem counter_tally (w : Nat) (l : List (κ × Nat)) (t : ExtTreeMap κ Nat cmp) (j : κ)
    (h : counter t j + ((l.filter fun e => e.1 = j).map Prod.snd).sum < 2 ^ w) :
    counter (tally w l t) j = counter t j + ((l.filter fun e => e.1 = j).map Prod.snd).sum := by
  induction l generalizing t with
  | nil => simp [tally]
  | cons e l ih =>
    simp only [tally, List.foldl_cons] at ih ⊢
    by_cases hj : e.1 = j
    · simp only [hj, decide_true, List.filter_cons_of_pos, List.map_cons, List.sum_cons] at h ⊢
      have hb : counter (bump w t j e.2) j = counter t j + e.2 := by
        rw [counter_bump, if_pos rfl, satAdd_of_lt (by omega)]
      rw [ih _ (by rw [hb]; omega), hb]
      omega
    · simp only [hj, decide_false, Bool.false_eq_true, not_false_eq_true,
        List.filter_cons_of_neg] at h ⊢
      have hb : counter (bump w t e.1 e.2) j = counter t j := by rw [counter_bump, if_neg hj]
      rw [ih _ (by rw [hb]; exact h), hb]

/-- Of members with distinct keys, those that meet `p` are the others that do, and the member
itself if it does. -/
theorem countP_eq_others_add {α : Type} {key : α → κ} {l : List α} {x : α}
    (hnd : (l.map key).Nodup) (hx : x ∈ l) (p : α → Bool) :
    l.countP p = (l.countP fun y => decide (key y ≠ key x) && p y) + if p x then 1 else 0 := by
  obtain ⟨front, back, rfl⟩ := List.append_of_mem hx
  rw [List.map_append, List.map_cons, List.nodup_append] at hnd
  obtain ⟨_, hback, hdisjoint⟩ := hnd
  have hfront : ∀ y ∈ front, key y ≠ key x := fun y hy =>
    hdisjoint _ (List.mem_map_of_mem hy) _ List.mem_cons_self
  have hrest : ∀ y ∈ back, key y ≠ key x := by
    intro y hy heq
    exact (List.nodup_cons.mp hback).1 (heq ▸ List.mem_map_of_mem hy)
  have hsame : ∀ part : List α, (∀ y ∈ part, key y ≠ key x) →
      (part.countP fun y => decide (key y ≠ key x) && p y) = part.countP p := by
    intro part hpart
    refine List.countP_congr fun y hy => ?_
    rw [decide_eq_true (hpart y hy), Bool.true_and]
  rw [List.countP_append, List.countP_append, List.countP_cons, List.countP_cons,
    hsame front hfront, hsame back hrest]
  simp
  omega

/-- Of distinct keys, exactly one equals a given member. -/
theorem sum_indicator {keys : List κ} (hnd : keys.Nodup) {y : κ} (hy : y ∈ keys) :
    (keys.map fun k => if y = k then 1 else 0).sum = 1 := by
  induction keys with
  | nil => cases hy
  | cons k keys ih =>
    rw [List.nodup_cons] at hnd
    by_cases hk : y = k
    · have hzero : (keys.map fun j => if y = j then 1 else 0).sum = 0 := by
        refine List.sum_eq_zero fun n hn => ?_
        obtain ⟨j, hj, rfl⟩ := List.mem_map.mp hn
        rw [if_neg]
        rintro rfl
        exact hnd.1 (hk ▸ hj)
      rw [List.map_cons, List.sum_cons, if_pos hk, hzero]
    · rw [List.map_cons, List.sum_cons, if_neg hk,
        ih hnd.2 ((List.mem_cons.mp hy).resolve_left hk)]

/-- When a table counts the list `l` by the key `f`, its counters add up to the length of `l`:
every element is counted under exactly one key. -/
theorem sum_fibers {α : Type} (t : ExtTreeMap κ Nat cmp) (f : α → κ) (l : List α)
    (h : ∀ k, counter t k = l.countP fun x => f x = k) : (valuesOf t).sum = l.length := by
  have hval : valuesOf t = (t.toList.map Prod.fst).map fun k => l.countP fun x => f x = k := by
    rw [valuesOf, List.map_map]
    refine List.map_congr_left fun e he => ?_
    have := ExtTreeMap.mem_toList_iff_getElem?_eq_some.mp (show (e.1, e.2) ∈ t.toList from he)
    rw [Function.comp_apply, ← h e.1, counter, this, Option.getD_some]
  have hmem : ∀ x ∈ l, f x ∈ t.toList.map Prod.fst := by
    intro x hx
    have hpos : 0 < counter t (f x) := by
      rw [h]
      exact List.countP_pos_iff.mpr ⟨x, hx, by simp⟩
    cases hv : t[f x]? with
    | none => simp [counter, hv] at hpos
    | some v =>
      exact List.mem_map.mpr ⟨(f x, v), ExtTreeMap.mem_toList_iff_getElem?_eq_some.mpr hv, rfl⟩
  have hnd := nodup_keys_toList t
  rw [hval]
  generalize t.toList.map Prod.fst = keys at hmem hnd
  clear h hval
  induction l with
  | nil => simp
  | cons x l ih =>
    have ih' := ih fun y hy => hmem y (List.mem_cons_of_mem _ hy)
    have hsplit : (keys.map fun k => (x :: l).countP fun y => f y = k) =
        keys.map fun k => (l.countP fun y => f y = k) + if f x = k then 1 else 0 := by
      refine List.map_congr_left fun k _ => ?_
      simp [List.countP_cons]
    rw [hsplit, List.sum_map_add, ih', sum_indicator hnd (hmem x List.mem_cons_self),
      List.length_cons]

end

/-! ## Rows of a pair table -/

section
variable {α β ν : Type} [Ord α] [Ord β] [TransOrd α] [TransOrd β] [LawfulEqOrd α] [LawfulEqOrd β]
  [DecidableEq α]

/-- The entries of a pair table whose first component is `a`. -/
def row (t : PairTable α β ν) (a : α) : List ((α × β) × ν) :=
  t.toList.filter fun e => e.1.1 = a

/-- The row of `a` holds, up to order, the entries found by looking up `a` with each second
component. -/
theorem row_perm (t : PairTable α β ν) (a : α) (bs : List β) (hbs : bs.Nodup)
    (hall : ∀ b, b ∈ bs) :
    (row t a).Perm (bs.filterMap fun b => t[(a, b)]?.map fun v => ((a, b), v)) := by
  refine (List.perm_ext_iff_of_nodup ((nodup_toList t).filter _) ?_).mpr ?_
  · refine hbs.filterMap ?_
    intro b b' e he he'
    simp only [Option.mem_def, Option.map_eq_some_iff] at he he'
    obtain ⟨_, _, rfl⟩ := he
    obtain ⟨_, _, hb⟩ := he'
    simp only [Prod.mk.injEq] at hb
    exact hb.1.2.symm
  · rintro ⟨⟨x, b⟩, v⟩
    simp only [List.mem_filter, decide_eq_true_eq, List.mem_filterMap, Option.map_eq_some_iff,
      Prod.mk.injEq, ExtTreeMap.mem_toList_iff_getElem?_eq_some]
    constructor
    · rintro ⟨hv, rfl⟩
      exact ⟨b, hall b, v, hv, ⟨rfl, rfl⟩, rfl⟩
    · rintro ⟨_, _, _, hv, ⟨rfl, rfl⟩, rfl⟩
      exact ⟨hv, rfl⟩

end

end Zenith.Tables
