import Zenith.Lib.Faults

/-!
# Operations on a part of the state

A state that is put together from two stores has operations on each. `Op.on` runs an operation of one of them in the
whole, through a `Part`; the writes of both share the outcomes to come.

`Keeps` is the weakest thing worth knowing of an operation that is not cut short: whatever writes fail, and whether it
returns or gives up, what held before holds after.
-/

namespace Zenith.Faults

/-- A part of a state, and how it is replaced. -/
structure Part (σ τ : Type) where
  get : σ → τ
  put : τ → σ → σ

/-- The operation in the whole; `toError` says what its errors are there. -/
def Op.on {σ τ ε δ α : Type} (part : Part σ τ) (toError : δ → ε) (op : Op τ δ α) : Op σ ε α := fun w =>
  match op ⟨part.get w.state, w.outcomes⟩ with
  | (.ok value, w') => (.ok value, ⟨part.put w'.state w.state, w'.outcomes⟩)
  | (.error e, w') => (.error (toError e), ⟨part.put w'.state w.state, w'.outcomes⟩)
  | (.crash, w') => (.crash, ⟨part.put w'.state w.state, w'.outcomes⟩)

theorem meets_on {σ τ ε δ α : Type} {part : Part σ τ} {toError : δ → ε} {op : Op τ δ α} {w : World σ}
    {Q : α → World σ → Prop} {E : ε → World σ → Prop} {C : World σ → Prop} :
    Meets (op.on part toError w) Q E C ↔
      Meets (op ⟨part.get w.state, w.outcomes⟩) (fun value w' => Q value ⟨part.put w'.state w.state, w'.outcomes⟩)
        (fun e w' => E (toError e) ⟨part.put w'.state w.state, w'.outcomes⟩)
        fun w' => C ⟨part.put w'.state w.state, w'.outcomes⟩ := by
  unfold Op.on
  rcases op ⟨part.get w.state, w.outcomes⟩ with ⟨value | e | _, w'⟩ <;> rfl

/-- What a run comes to is also the world after it. -/
theorem Meets.self {σ ε α : Type} {run : Result ε α × World σ} {Q : α → World σ → Prop} {E : ε → World σ → Prop}
    {C : World σ → Prop} (h : Meets run Q E C) :
    Meets run (fun value w => Q value w ∧ w = run.2) (fun e w => E e w ∧ w = run.2) fun w => C w ∧ w = run.2 := by
  obtain ⟨value | e | _, w'⟩ := run <;> exact ⟨h, rfl⟩

/-! ## What an operation keeps -/

section
variable {σ τ ε δ α β : Type}

/-- The run was not cut short, and `P` holds after it. -/
def Ends (run : Result ε α × World σ) (P : World σ → Prop) : Prop :=
  Meets run (fun _ w => P w) (fun _ w => P w) fun _ => False

theorem Ends.mono {run : Result ε α × World σ} {P P' : World σ → Prop} (h : Ends run P) (hP : ∀ w, P w → P' w) :
    Ends run P' :=
  Meets.mono h (fun _ => hP) (fun _ => hP) fun _ => False.elim

theorem Ends.snd {run : Result ε α × World σ} {P : World σ → Prop} (h : Ends run P) : P run.2 := by
  obtain ⟨value | e | _, w⟩ := run
  · exact h
  · exact h
  · exact False.elim h

/-- Where no write cuts the operation short, what holds before it holds after it. -/
def Keeps (I : σ → Prop) (op : Op σ ε α) : Prop :=
  ∀ w, NoCrash w.outcomes → I w.state → Ends (op w) fun w' => NoCrash w'.outcomes ∧ I w'.state

variable {I : σ → Prop}

theorem keeps_pure (value : α) : Keeps I (pure value : Op σ ε α) := fun _ hcalm hw => ⟨hcalm, hw⟩

theorem keeps_get : Keeps I (Op.get : Op σ ε σ) := fun _ hcalm hw => ⟨hcalm, hw⟩

theorem keeps_throw (e : ε) : Keeps I (Op.throw e : Op σ ε α) := fun _ hcalm hw => ⟨hcalm, hw⟩

theorem keeps_ofExcept (value : Except ε α) : Keeps I (Op.ofExcept value : Op σ ε α) := by
  cases value with
  | ok value => exact keeps_pure value
  | error e => exact keeps_throw e

theorem keeps_write {update : σ → σ} {e : ε} (h : ∀ s, I s → I (update s)) : Keeps I (Op.write update e) :=
  fun _ hcalm hw => meets_write hcalm (fun _ hrest => ⟨hrest, h _ hw⟩) (fun _ _ hrest => ⟨hrest, hw⟩)
    fun hcrash => absurd rfl hcrash

theorem Keeps.bind {op : Op σ ε α} {next : α → Op σ ε β} (h : Keeps I op) (hnext : ∀ value, Keeps I (next value)) :
    Keeps I (op >>= next) := fun w hcalm hw =>
  (meets_bind op next).mpr (Meets.mono (h w hcalm hw) (fun value w' hw' => hnext value w' hw'.1 hw'.2) (fun _ _ hE => hE)
    fun _ hC => hC)

theorem Keeps.attempt {op : Op σ ε α} (h : Keeps I op) : Keeps I op.attempt := fun w hcalm hw =>
  (meets_attempt op).mpr (h w hcalm hw)

theorem Keeps.on {part : Part σ τ} {toError : δ → ε} {op : Op τ δ α} {P : τ → Prop} (h : Keeps P op)
    (hget : ∀ s, I s → P (part.get s)) (hput : ∀ s t, I s → P t → I (part.put t s)) : Keeps I (op.on part toError) :=
  fun w hcalm hw => meets_on.mpr (Meets.mono (h ⟨part.get w.state, w.outcomes⟩ hcalm (hget w.state hw))
    (fun _ _ hw' => ⟨hw'.1, hput _ _ hw hw'.2⟩) (fun _ _ hw' => ⟨hw'.1, hput _ _ hw hw'.2⟩) fun _ hC => hC)

end

/-! ## What no run of an operation changes -/

section
variable {σ τ ε δ α β : Type} {I : σ → Prop}

/-- What holds before the operation holds after it, even where it is cut short. -/
def Spares (I : σ → Prop) (op : Op σ ε α) : Prop := ∀ w, I w.state → I (op w).2.state

theorem spares_pure (value : α) : Spares I (pure value : Op σ ε α) := fun _ hw => hw

theorem spares_get : Spares I (Op.get : Op σ ε σ) := fun _ hw => hw

theorem spares_throw (e : ε) : Spares I (Op.throw e : Op σ ε α) := fun _ hw => hw

theorem spares_ofExcept (value : Except ε α) : Spares I (Op.ofExcept value : Op σ ε α) := by
  cases value with
  | ok value => exact spares_pure value
  | error e => exact spares_throw e

theorem spares_modify {update : σ → σ} (h : ∀ s, I s → I (update s)) : Spares I (Op.modify update : Op σ ε Unit) :=
  fun _ hw => h _ hw

theorem spares_write {update : σ → σ} {e : ε} (h : ∀ s, I s → I (update s)) : Spares I (Op.write update e) := by
  rintro ⟨s, outcomes⟩ hs
  unfold Op.write
  rcases outcomes with _ | ⟨outcome, outcomes⟩
  · exact h s hs
  · cases outcome with
    | done => exact h s hs
    | failed => exact hs
    | crashed => exact hs

theorem Spares.bind {op : Op σ ε α} {next : α → Op σ ε β} (h : Spares I op) (hnext : ∀ value, Spares I (next value)) :
    Spares I (op >>= next) := by
  intro w hw
  have hafter := h w hw
  change I (Op.bind op next w).2.state
  unfold Op.bind
  generalize op w = run at hafter ⊢
  obtain ⟨value | e | _, w'⟩ := run
  · exact hnext value w' hafter
  · exact hafter
  · exact hafter

theorem Spares.on {part : Part σ τ} {toError : δ → ε} {op : Op τ δ α} (hput : ∀ s t, I s → I (part.put t s)) :
    Spares I (op.on part toError) := by
  intro w hw
  unfold Op.on
  rcases op ⟨part.get w.state, w.outcomes⟩ with ⟨value | e | _, w'⟩ <;> exact hput w.state w'.state hw

end

/-! ## Operations that give up at the first failure -/

section
variable {σ τ ε δ α β : Type}

/-- An operation that returned was not disturbed. -/
def GivesUp (op : Op σ ε α) : Prop := ∀ w value w', op w = (.ok value, w') → op ⟨w.state, []⟩ = (.ok value, ⟨w'.state, []⟩)

theorem givesUp_pure (value : α) : GivesUp (pure value : Op σ ε α) := by
  intro w value' w' h
  obtain ⟨hvalue, rfl⟩ := Prod.mk.inj h
  obtain rfl := Result.ok.inj hvalue
  rfl

theorem givesUp_get : GivesUp (Op.get : Op σ ε σ) := by
  intro w value' w' h
  obtain ⟨hvalue, rfl⟩ := Prod.mk.inj h
  obtain rfl := Result.ok.inj hvalue
  rfl

theorem givesUp_throw (e : ε) : GivesUp (Op.throw e : Op σ ε α) := fun _ _ _ h => nomatch congrArg Prod.fst h

theorem givesUp_ofExcept (value : Except ε α) : GivesUp (Op.ofExcept value : Op σ ε α) := by
  cases value with
  | ok value => exact givesUp_pure value
  | error e => exact givesUp_throw e

theorem givesUp_modify {update : σ → σ} : GivesUp (Op.modify update : Op σ ε Unit) := by
  intro w value w' h
  obtain ⟨-, rfl⟩ := Prod.mk.inj h
  rfl

theorem givesUp_write {update : σ → σ} {e : ε} : GivesUp (Op.write update e) := by
  rintro ⟨s, outcomes⟩ value w' h
  unfold Op.write at h
  rcases outcomes with _ | ⟨outcome, outcomes⟩
  · obtain ⟨-, rfl⟩ := Prod.mk.inj h
    rfl
  · cases outcome with
    | done =>
      obtain ⟨-, rfl⟩ := Prod.mk.inj h
      rfl
    | failed => exact nomatch congrArg Prod.fst h
    | crashed => exact nomatch congrArg Prod.fst h

theorem GivesUp.bind {op : Op σ ε α} {next : α → Op σ ε β} (h : GivesUp op) (hnext : ∀ value, GivesUp (next value)) :
    GivesUp (op >>= next) := by
  intro w value w' hrun
  change Op.bind op next w = _ at hrun
  change Op.bind op next _ = _
  unfold Op.bind at hrun ⊢
  rcases hop : op w with ⟨middle | e | _, w₁⟩
  · rw [hop] at hrun
    rw [h w middle w₁ hop]
    exact hnext middle w₁ value w' hrun
  · rw [hop] at hrun
    exact nomatch congrArg Prod.fst hrun
  · rw [hop] at hrun
    exact nomatch congrArg Prod.fst hrun

theorem GivesUp.on {part : Part σ τ} {toError : δ → ε} {op : Op τ δ α} (h : GivesUp op) : GivesUp (op.on part toError) := by
  intro w value w' hrun
  unfold Op.on at hrun ⊢
  rcases hop : op ⟨part.get w.state, w.outcomes⟩ with ⟨middle | e | _, w₁⟩ <;> rw [hop] at hrun
  · obtain ⟨hvalue, rfl⟩ := Prod.mk.inj hrun
    obtain rfl := Result.ok.inj hvalue
    dsimp only
    rw [h _ middle w₁ hop]
  · exact nomatch congrArg Prod.fst hrun
  · exact nomatch congrArg Prod.fst hrun

/-- A failure may be caught, if what follows gives up, too. -/
theorem GivesUp.catching {op : Op σ ε α} {next : Except ε α → Op σ ε β} (h : GivesUp op)
    (herror : ∀ e w value w', next (.error e) w ≠ (.ok value, w')) (hok : ∀ value, GivesUp (next (.ok value))) :
    GivesUp (op.attempt >>= next) := by
  intro w value w' hrun
  change Op.bind op.attempt next w = _ at hrun
  change Op.bind op.attempt next _ = _
  unfold Op.bind Op.attempt at hrun ⊢
  rcases hop : op w with ⟨middle | e | _, w₁⟩
  · rw [hop] at hrun
    rw [h w middle w₁ hop]
    exact hok middle w₁ value w' hrun
  · rw [hop] at hrun
    exact absurd hrun (herror e w₁ value w')
  · rw [hop] at hrun
    exact nomatch congrArg Prod.fst hrun

/-- An operation that ends by giving up does not return. -/
theorem ne_ok_bind {op : Op σ ε α} {next : α → Op σ ε β} (h : ∀ middle w value w', next middle w ≠ (.ok value, w'))
    (w : World σ) (value : β) (w' : World σ) : (op >>= next) w ≠ (.ok value, w') := by
  intro hrun
  change Op.bind op next w = _ at hrun
  unfold Op.bind at hrun
  rcases hop : op w with ⟨middle | e | _, w₁⟩ <;> rw [hop] at hrun
  · exact h middle w₁ value w' hrun
  · exact nomatch congrArg Prod.fst hrun
  · exact nomatch congrArg Prod.fst hrun

end

end Zenith.Faults
