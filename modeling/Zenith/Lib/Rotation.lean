import Mathlib

/-!
# Rotation among equals

Members of a pool are served one at a time. `LeastServed` says of a sequence of services that each
went to a member that was served least so far; which of them, when there are several, is left open.

The pool stays even: no member is ever served more than once above another (`LeastServed.even`). So
after `k` services each of `n` members has been served `k / n` times, rounded down or up
(`LeastServed.share`).
-/

namespace Zenith.Rotation

variable {α : Type} [DecidableEq α]

/-! ## Services -/

/-- How often each member was served, after one more service. -/
def serve (served : α → Nat) (a : α) : α → Nat := fun b => if a = b then served b + 1 else served b

inductive LeastServed (pool : Finset α) : (α → Nat) → List α → Prop
  | nil (served : α → Nat) : LeastServed pool served []
  | cons {served : α → Nat} {a : α} {rest : List α} : a ∈ pool → (∀ b ∈ pool, served a ≤ served b) →
      LeastServed pool (serve served a) rest → LeastServed pool served (a :: rest)

def Even (pool : Finset α) (served : α → Nat) : Prop :=
  ∀ a ∈ pool, ∀ b ∈ pool, served a ≤ served b + 1

variable {pool : Finset α} {served : α → Nat} {picks : List α}

/-! ## The pool stays even -/

theorem Even.serve (h : Even pool served) {a : α} (hleast : ∀ b ∈ pool, served a ≤ served b) :
    Even pool (serve served a) := by
  intro b hb c hc
  have hbc := h b hb c hc
  unfold Rotation.serve
  by_cases hab : a = b
  · subst hab
    have hle := hleast c hc
    split <;> split <;> omega
  · rw [if_neg hab]
    split <;> omega

theorem serve_add_count (served : α → Nat) (a : α) (rest : List α) :
    (fun b => serve served a b + rest.count b) = fun b => served b + (a :: rest).count b := by
  funext b
  rw [List.count_cons]
  unfold serve
  by_cases hab : a = b
  · rw [if_pos hab, if_pos (by simpa using hab)]
    omega
  · rw [if_neg hab, if_neg (by simpa using hab)]
    omega

theorem LeastServed.even (h : LeastServed pool served picks) (heven : Even pool served) :
    Even pool fun a => served a + picks.count a := by
  induction h with
  | nil served => exact heven
  | cons _ hleast _ ih =>
    rw [← serve_add_count]
    exact ih (heven.serve hleast)

/-! ## Shares -/

theorem sum_serve {a : α} (ha : a ∈ pool) :
    ∑ b ∈ pool, serve served a b = (∑ b ∈ pool, served b) + 1 := by
  have hsplit : ∀ b, serve served a b = served b + if a = b then 1 else 0 := fun b => by
    unfold serve
    split <;> rfl
  simp only [hsplit, Finset.sum_add_distrib, Finset.sum_ite_eq, if_pos ha]

theorem LeastServed.sum_count (h : LeastServed pool served picks) :
    ∑ a ∈ pool, (served a + picks.count a) = (∑ a ∈ pool, served a) + picks.length := by
  induction h with
  | nil served => simp
  | @cons served a rest ha _ _ ih =>
    have hcount := congrArg (fun f : α → Nat => ∑ b ∈ pool, f b) (serve_add_count served a rest)
    rw [← hcount, ih, sum_serve ha, List.length_cons]
    omega

omit [DecidableEq α] in
/-- A least served member is below any bound the whole pool together is below. -/
theorem lt_of_sum_lt {a : α} (hleast : ∀ b ∈ pool, served a ≤ served b) {bound : Nat}
    (hsum : ∑ b ∈ pool, served b < pool.card * bound) : served a < bound := by
  have hle := pool.card_nsmul_le_sum served (served a) hleast
  rw [smul_eq_mul] at hle
  exact Nat.lt_of_mul_lt_mul_left (Nat.lt_of_le_of_lt hle hsum)

/-- In an even pool every member has its share, rounded down or up. -/
theorem Even.share (h : Even pool served) {a : α} (ha : a ∈ pool) :
    served a = (∑ b ∈ pool, served b) / pool.card ∨
      served a = ((∑ b ∈ pool, served b) + pool.card - 1) / pool.card := by
  have hcard : 0 < pool.card := Finset.card_pos.mpr ⟨a, ha⟩
  have hself : pool.card = (pool.erase a).card + 1 := (Finset.card_erase_add_one ha).symm
  have hsum : ∑ b ∈ pool, served b = served a + ∑ b ∈ pool.erase a, served b :=
    (Finset.add_sum_erase pool served ha).symm
  -- The others were served at most once more, and at most once less.
  have hupper : ∑ b ∈ pool.erase a, served b ≤ (pool.erase a).card * (served a + 1) :=
    Finset.sum_le_card_nsmul _ _ _ fun b hb => h b (Finset.mem_of_mem_erase hb) a ha
  have hlower : (pool.erase a).card * (served a - 1) ≤ ∑ b ∈ pool.erase a, served b :=
    Finset.card_nsmul_le_sum _ _ _ fun b hb =>
      Nat.sub_le_iff_le_add.mpr (h a ha b (Finset.mem_of_mem_erase hb))
  generalize hothers : ∑ b ∈ pool.erase a, served b = others at *
  generalize hcount : (pool.erase a).card = count at *
  rw [hsum, hself]
  by_cases hmore : count * served a ≤ others
  · refine .inl (Nat.div_eq_of_lt_le ?_ ?_).symm
    · linarith
    · linarith
  · have hpos : 1 ≤ served a := by
      by_contra hzero
      simp [Nat.lt_one_iff.mp (Nat.not_le.mp hzero)] at hmore
    have hlower' : count * served a ≤ others + count := by
      calc count * served a = count * (served a - 1) + count := by
            rw [← Nat.mul_succ, Nat.succ_eq_add_one, Nat.sub_add_cancel hpos]
        _ ≤ others + count := Nat.add_le_add_right hlower count
    refine .inr (Nat.div_eq_of_lt_le ?_ ?_).symm
    · rw [Nat.mul_succ, Nat.mul_comm]
      omega
    · rw [Nat.succ_mul, Nat.mul_succ, Nat.mul_comm]
      omega

end Zenith.Rotation
