import Mathlib

/-!
# Operations whose writes may fail or be cut short

An operation reads a state, writes it and may give up with an error. What becomes of its writes is
not up to it: each takes effect, fails and leaves the state as it is, or is never reached because the
program stopped before it. `World` holds the state and the outcomes of the writes to come; the writes
after the last listed outcome all take effect.

`Meets` is the rule form of a run: what its result and the world after it satisfy, for a run that
returned, one that gave up and one that was cut short. An operation can catch an error
(`Op.attempt`), but not the end of the program.
-/

namespace Zenith.Faults

inductive Outcome
  | done
  | failed
  | crashed
deriving DecidableEq, Repr

structure World (σ : Type) where
  state : σ
  outcomes : List Outcome

inductive Result (ε α : Type)
  | ok (value : α)
  | error (e : ε)
  | crash
deriving DecidableEq, Repr

def Op (σ ε α : Type) : Type := World σ → Result ε α × World σ

namespace Op

variable {σ ε α β : Type}

protected def pure (value : α) : Op σ ε α := fun w => (.ok value, w)

protected def bind (op : Op σ ε α) (next : α → Op σ ε β) : Op σ ε β := fun w =>
  match op w with
  | (.ok value, w) => next value w
  | (.error e, w) => (.error e, w)
  | (.crash, w) => (.crash, w)

instance : Monad (Op σ ε) where
  pure := Op.pure
  bind := Op.bind

def get : Op σ ε σ := fun w => (.ok w.state, w)

def throw (e : ε) : Op σ ε α := fun w => (.error e, w)

def ofExcept : Except ε α → Op σ ε α
  | .ok value => Op.pure value
  | .error e => Op.throw e

/-- One write: `update` if it takes effect, the error `e` if it fails. -/
def write (update : σ → σ) (e : ε) : Op σ ε Unit := fun w =>
  match w.outcomes with
  | [] => (.ok (), { w with state := update w.state })
  | .done :: outcomes => (.ok (), ⟨update w.state, outcomes⟩)
  | .failed :: outcomes => (.error e, ⟨w.state, outcomes⟩)
  | .crashed :: outcomes => (.crash, ⟨w.state, outcomes⟩)

/-- A change of what only the program itself sees. It cannot fail, and nothing is cut short there. -/
def modify (update : σ → σ) : Op σ ε Unit := fun w => (.ok (), { w with state := update w.state })

def attempt (op : Op σ ε α) : Op σ ε (Except ε α) := fun w =>
  match op w with
  | (.ok value, w) => (.ok (.ok value), w)
  | (.error e, w) => (.ok (.error e), w)
  | (.crash, w) => (.crash, w)

/-- A run that nothing disturbs. -/
def calm (op : Op σ ε α) (s : σ) : Result ε α × σ :=
  ((op ⟨s, []⟩).1, (op ⟨s, []⟩).2.state)

end Op

/-- What a run comes to: `Q` where it returned, `E` where it gave up, `C` where it was cut short. -/
def Meets {σ ε α : Type} (run : Result ε α × World σ) (Q : α → World σ → Prop) (E : ε → World σ → Prop)
    (C : World σ → Prop) : Prop :=
  match run with
  | (.ok value, w) => Q value w
  | (.error e, w) => E e w
  | (.crash, w) => C w

section
variable {σ ε α β : Type} {w : World σ} {Q : α → World σ → Prop} {E : ε → World σ → Prop}
  {C : World σ → Prop}

@[simp] theorem meets_pure (value : α) :
    Meets ((pure value : Op σ ε α) w) Q E C ↔ Q value w := Iff.rfl

@[simp] theorem meets_bind (op : Op σ ε α) (next : α → Op σ ε β) {Q : β → World σ → Prop} :
    Meets ((op >>= next) w) Q E C ↔ Meets (op w) (fun value w => Meets (next value w) Q E C) E C := by
  show Meets (Op.bind op next w) Q E C ↔ _
  rw [Op.bind]
  rcases op w with ⟨value | e | _, w'⟩ <;> rfl

theorem meets_ok {value : α} : Meets (.ok value, w) Q E C ↔ Q value w := Iff.rfl

theorem meets_error {e : ε} : Meets (.error e, w) Q E C ↔ E e w := Iff.rfl

theorem meets_crash : Meets (.crash, w) Q E C ↔ C w := Iff.rfl

@[simp] theorem meets_get {Q : σ → World σ → Prop} :
    Meets ((Op.get : Op σ ε σ) w) Q E C ↔ Q w.state w := Iff.rfl

@[simp] theorem meets_modify (update : σ → σ) {Q : Unit → World σ → Prop} :
    Meets ((Op.modify update : Op σ ε Unit) w) Q E C ↔ Q () { w with state := update w.state } := Iff.rfl

@[simp] theorem meets_ofExcept_ok (value : α) :
    Meets ((Op.ofExcept (.ok value) : Op σ ε α) w) Q E C ↔ Q value w := Iff.rfl

@[simp] theorem meets_ofExcept_error (e : ε) :
    Meets ((Op.ofExcept (.error e) : Op σ ε α) w) Q E C ↔ E e w := Iff.rfl

@[simp] theorem meets_throw (e : ε) : Meets ((Op.throw e : Op σ ε α) w) Q E C ↔ E e w := Iff.rfl

@[simp] theorem meets_attempt (op : Op σ ε α) {Q : Except ε α → World σ → Prop} :
    Meets (op.attempt w) Q E C ↔
      Meets (op w) (fun value w => Q (.ok value) w) (fun e w => Q (.error e) w) C := by
  rw [Op.attempt]
  rcases op w with ⟨value | e | _, w'⟩ <;> rfl

theorem Meets.mono {run : Result ε α × World σ} (h : Meets run Q E C) {Q' : α → World σ → Prop}
    {E' : ε → World σ → Prop} {C' : World σ → Prop} (hQ : ∀ value w, Q value w → Q' value w)
    (hE : ∀ e w, E e w → E' e w) (hC : ∀ w, C w → C' w) : Meets run Q' E' C' := by
  obtain ⟨value | e | _, w'⟩ := run
  · exact hQ _ _ h
  · exact hE _ _ h
  · exact hC _ h

theorem Meets.of_forall {run : Result ε α × World σ} (h : ∀ value w, Q value w) : Meets run Q (fun _ _ => True) fun _ => True := by
  obtain ⟨value | e | _, w'⟩ := run
  · exact h value w'
  · trivial
  · trivial

/-- A run in sequence: the second part starts where the first returned. -/
theorem Meets.bind {op : Op σ ε α} {next : α → Op σ ε β} {Q : α → World σ → Prop}
    {Q' : β → World σ → Prop} (h : Meets (op w) Q E C)
    (hnext : ∀ value w', Q value w' → Meets (next value w') Q' E C) : Meets ((op >>= next) w) Q' E C :=
  (meets_bind op next).mpr (h.mono hnext (fun _ _ hE => hE) fun _ hC => hC)

theorem Meets.and {run : Result ε α × World σ} {Q' : α → World σ → Prop} {E' : ε → World σ → Prop}
    {C' : World σ → Prop} (h : Meets run Q E C) (h' : Meets run Q' E' C') :
    Meets run (fun value w => Q value w ∧ Q' value w) (fun e w => E e w ∧ E' e w)
      (fun w => C w ∧ C' w) := by
  obtain ⟨value | e | _, w'⟩ := run <;> exact ⟨h, h'⟩

end

/-! ## Which outcomes can occur

A development about crashes excludes failed writes, one about failed writes excludes crashes. -/

/-- Only outcomes that meet `A` occur. -/
def Within (A : Outcome → Prop) (outcomes : List Outcome) : Prop := ∀ outcome ∈ outcomes, A outcome

/-- No write fails; the program may be cut short. -/
abbrev NoFailure : List Outcome → Prop := Within (· ≠ .failed)

/-- The program is not cut short. -/
abbrev NoCrash : List Outcome → Prop := Within (· ≠ .crashed)

theorem within_nil (A : Outcome → Prop) : Within A [] := fun _ h => nomatch h

section
variable {σ ε : Type} {w : World σ} {Q : Unit → World σ → Prop} {E : ε → World σ → Prop}
  {C : World σ → Prop} {update : σ → σ} {e : ε}

/-- The rule of a write. It is about failures only where they can occur, and so for crashes. -/
theorem meets_write {A : Outcome → Prop} (h : Within A w.outcomes)
    (hQ : ∀ outcomes, Within A outcomes → Q () ⟨update w.state, outcomes⟩)
    (hE : A .failed → ∀ outcomes, Within A outcomes → E e ⟨w.state, outcomes⟩)
    (hC : A .crashed → ∀ outcomes, Within A outcomes → C ⟨w.state, outcomes⟩) :
    Meets (Op.write update e w) Q E C := by
  obtain ⟨s, _ | ⟨outcome, outcomes⟩⟩ := w
  · exact hQ [] h
  · have hhead : A outcome := h outcome List.mem_cons_self
    have hrest : Within A outcomes := fun outcome hmem => h outcome (List.mem_cons_of_mem _ hmem)
    cases outcome with
    | done => exact hQ outcomes hrest
    | failed => exact hE hhead outcomes hrest
    | crashed => exact hC hhead outcomes hrest

/-- The next `n` writes take effect. -/
def Goes (n : Nat) (outcomes : List Outcome) : Prop := ∀ outcome ∈ outcomes.take n, outcome = .done

instance (n : Nat) (outcomes : List Outcome) : Decidable (Goes n outcomes) :=
  inferInstanceAs (Decidable (∀ outcome ∈ outcomes.take n, outcome = .done))

theorem goes_zero (outcomes : List Outcome) : Goes 0 outcomes := fun _ h => nomatch h

theorem goes_add (a b : Nat) (outcomes : List Outcome) :
    Goes (a + b) outcomes ↔ Goes a outcomes ∧ Goes b (outcomes.drop a) := by
  unfold Goes
  rw [List.take_add]
  simp only [List.mem_append, or_imp, forall_and]

/-- The rule of a write, by what becomes of the next writes. -/
theorem meets_write_goes {s : σ} {outcomes : List Outcome}
    (hQ : Goes 1 outcomes → Q () ⟨update s, outcomes.drop 1⟩)
    (hE : ¬Goes 1 outcomes → outcomes.head? = some .failed → E e ⟨s, outcomes.drop 1⟩)
    (hC : ¬Goes 1 outcomes → outcomes.head? = some .crashed → C ⟨s, outcomes.drop 1⟩) :
    Meets (Op.write update e ⟨s, outcomes⟩) Q E C := by
  cases outcomes with
  | nil => exact hQ fun _ h => nomatch h
  | cons outcome rest =>
    have hhead : outcome ≠ .done → ¬Goes 1 (outcome :: rest) := fun hne h => hne (h outcome List.mem_cons_self)
    cases outcome with
    | done => exact hQ fun outcome hmem => List.mem_singleton.mp hmem
    | failed => exact hE (hhead nofun) rfl
    | crashed => exact hC (hhead nofun) rfl

/-- What an undisturbed run comes to, where it cannot be cut short. -/
theorem Meets.calm {α : Type} {op : Op σ ε α} {s : σ} {Q : α → World σ → Prop}
    {E : ε → World σ → Prop} {C : World σ → Prop} (h : Meets (op ⟨s, []⟩) Q E C) (hC : ∀ w, ¬C w) :
    (∃ value w, op.calm s = (.ok value, w.state) ∧ Q value w) ∨
      ∃ e w, op.calm s = (.error e, w.state) ∧ E e w := by
  rw [Op.calm]
  rcases hrun : op ⟨s, []⟩ with ⟨value | e | _, w⟩ <;> rw [hrun] at h
  · exact .inl ⟨value, w, rfl, h⟩
  · exact .inr ⟨e, w, rfl, h⟩
  · exact (hC w h).elim

theorem Meets.of_calm {α : Type} {op : Op σ ε α} {s s' : σ} {value : α} {Q : α → World σ → Prop} {E : ε → World σ → Prop}
    {C : World σ → Prop} (h : Meets (op ⟨s, []⟩) Q E C) (hcalm : op.calm s = (.ok value, s')) : ∃ w, w.state = s' ∧ Q value w := by
  rw [Op.calm] at hcalm
  rcases hrun : op ⟨s, []⟩ with ⟨value' | e | _, w⟩ <;> rw [hrun] at h hcalm
  · obtain ⟨heq, hstate⟩ := Prod.mk.inj hcalm
    obtain rfl := Result.ok.inj heq
    exact ⟨w, hstate, h⟩
  · exact nomatch congrArg Prod.fst hcalm
  · exact nomatch congrArg Prod.fst hcalm

/-- The write at a place in the run fails, and no other. -/
def failingAt (place : Nat) : List Outcome := List.replicate place .done ++ [.failed]

theorem meets_write_failingAt {place : Nat} (h : w.outcomes = failingAt place)
    (hQ : ∀ rest, place = rest + 1 → Q () ⟨update w.state, failingAt rest⟩)
    (hE : place = 0 → E e ⟨w.state, []⟩) : Meets (Op.write update e w) Q E C := by
  obtain ⟨s, outcomes⟩ := w
  obtain rfl : outcomes = failingAt place := h
  cases place with
  | zero => exact hE rfl
  | succ rest => exact hQ rest rfl

/-- Undisturbed, the operation ends in the state `s'`, whether it returns or gives up. -/
def Op.Leaves {α : Type} (op : Op σ ε α) (s s' : σ) : Prop :=
  ∃ result : Except ε α, op.attempt ⟨s, []⟩ = (.ok result, ⟨s', []⟩)

/-- Undisturbed, the operation returns in the state `s'`. -/
def Op.Does (op : Op σ ε Unit) (s s' : σ) : Prop := op ⟨s, []⟩ = (.ok (), ⟨s', []⟩)

theorem Op.Does.leaves {op : Op σ ε Unit} {s s' : σ} (h : op.Does s s') : op.Leaves s s' :=
  ⟨.ok (), by rw [Op.attempt, h]⟩

theorem Op.leaves_throw {α : Type} (e : ε) (s : σ) : (Op.throw e : Op σ ε α).Leaves s s :=
  ⟨.error e, rfl⟩

theorem Op.does_pure (s : σ) : (pure () : Op σ ε Unit).Does s s := rfl

theorem Op.Does.bind {op next : Op σ ε Unit} {s s' s'' : σ} (h : op.Does s s') (hnext : next.Does s' s'') :
    (op >>= fun _ => next).Does s s'' := by
  show Op.bind op (fun _ => next) ⟨s, []⟩ = _
  rw [Op.bind, h]
  exact hnext

/-- What is known of an undisturbed run, as a rule. -/
theorem Op.Leaves.meets {op : Op σ ε Unit} {s s' : σ} (h : op.Leaves s s') (hQ : Q () ⟨s', []⟩)
    (hE : ∀ e, E e ⟨s', []⟩) : Meets (op ⟨s, []⟩) Q E C := by
  obtain ⟨result, hrun⟩ := h
  rw [Op.attempt] at hrun
  rcases hop : op ⟨s, []⟩ with ⟨value | e | _, w'⟩ <;> rw [hop] at hrun
  · obtain rfl : w' = ⟨s', []⟩ := congrArg Prod.snd hrun
    exact hQ
  · obtain rfl : w' = ⟨s', []⟩ := congrArg Prod.snd hrun
    exact hE e
  · exact nomatch congrArg Prod.fst hrun

end

/-! ## Invariants of disturbed operations -/

section
variable {σ ε α β : Type} {I P : σ → Prop}

/-- From `P` the operation returns with `Q`, unless a write fails or it is cut short; then `I` holds. -/
def Attains (I P : σ → Prop) (op : Op σ ε α) (Q : α → σ → Prop) : Prop :=
  ∀ s outcomes, P s → Meets (op ⟨s, outcomes⟩) (fun value w => Q value w.state ∧ w.outcomes <:+ outcomes)
    (fun _ w => I w.state ∧ outcomes ≠ []) (fun w => I w.state ∧ outcomes ≠ [])

theorem Attains.bind {op : Op σ ε α} {next : α → Op σ ε β} {R : α → σ → Prop} {Q : β → σ → Prop} (h : Attains I P op R)
    (hnext : ∀ value, Attains I (R value) (next value) Q) : Attains I P (op >>= next) Q := by
  intro s outcomes hs
  refine (meets_bind op next).mpr ((h s outcomes hs).mono ?_ (fun _ _ hE => hE) fun _ hC => hC)
  rintro value w ⟨hR, hsuffix⟩
  have hne : w.outcomes ≠ [] → outcomes ≠ [] := fun hne heq => hne (List.suffix_nil.mp (heq ▸ hsuffix))
  exact (hnext value w.state w.outcomes hR).mono (fun _ _ hQ => ⟨hQ.1, hQ.2.trans hsuffix⟩) (fun _ _ hE => hE.imp_right hne)
    fun _ hC => hC.imp_right hne

theorem Attains.write {update : σ → σ} {e : ε} {Q : Unit → σ → Prop} (hI : ∀ s, P s → I s) (hQ : ∀ s, P s → Q () (update s)) :
    Attains I P (Op.write update e) Q := by
  intro s outcomes hs
  have hne : ¬Goes 1 outcomes → outcomes ≠ [] := by
    rintro hstop rfl
    exact hstop fun _ hmem => nomatch hmem
  exact meets_write_goes (fun _ => ⟨hQ s hs, List.drop_suffix 1 outcomes⟩) (fun hstop _ => ⟨hI s hs, hne hstop⟩)
    fun hstop _ => ⟨hI s hs, hne hstop⟩

theorem Attains.pure {value : α} {Q : α → σ → Prop} (hQ : ∀ s, P s → Q value s) : Attains I P (Pure.pure value : Op σ ε α) Q :=
  fun s outcomes hs => ⟨hQ s hs, List.suffix_refl outcomes⟩

/-- The operation begins by looking at the state. -/
theorem Attains.get {next : σ → Op σ ε β} {Q : β → σ → Prop} (h : ∀ s, P s → Attains I (· = s) (next s) Q) :
    Attains I P (Op.get >>= next) Q :=
  fun s outcomes hs => (meets_bind Op.get next).mpr (h s hs s outcomes rfl)

/-- The operation fails in no other way than by a failed write. -/
theorem Attains.ok {e : Except ε α} {value : α} {Q : α → σ → Prop} (he : e = .ok value) (hQ : ∀ s, P s → Q value s) :
    Attains I P (Op.ofExcept e : Op σ ε α) Q := by
  subst he
  exact Attains.pure hQ

/-- A failed operation is followed by one that gives up, and keeps the invariant until then. -/
theorem Attains.catching {op : Op σ ε α} {next : Except ε α → Op σ ε β} {R : α → σ → Prop} {Q : β → σ → Prop} (h : Attains I P op R)
    (herror : ∀ e s outcomes, I s →
      Meets (next (.error e) ⟨s, outcomes⟩) (fun _ _ => False) (fun _ w => I w.state) fun w => I w.state)
    (hok : ∀ value, Attains I (R value) (next (.ok value)) Q) : Attains I P (op.attempt >>= next) Q := by
  intro s outcomes hs
  refine (meets_bind _ _).mpr ((meets_attempt op).mpr ((h s outcomes hs).mono ?_ ?_ fun _ hC => hC))
  · rintro value w ⟨hR, hsuffix⟩
    have hne : w.outcomes ≠ [] → outcomes ≠ [] := fun hne heq => hne (List.suffix_nil.mp (heq ▸ hsuffix))
    exact (hok value w.state w.outcomes hR).mono (fun _ _ hQ => ⟨hQ.1, hQ.2.trans hsuffix⟩) (fun _ _ hE => hE.imp_right hne)
      fun _ hC => hC.imp_right hne
  · rintro e w ⟨hI, hne⟩
    exact (herror e w.state w.outcomes hI).mono (fun _ _ hfalse => hfalse.elim) (fun _ _ hE => ⟨hE, hne⟩) fun _ hC => ⟨hC, hne⟩

theorem Attains.relax {I' : σ → Prop} {op : Op σ ε α} {Q : α → σ → Prop} (h : Attains I P op Q) (hI : ∀ s, I s → I' s) :
    Attains I' P op Q :=
  fun s outcomes hs => (h s outcomes hs).mono (fun _ _ hQ => hQ) (fun _ _ hE => hE.imp_left (hI _)) fun _ hC => hC.imp_left (hI _)

end

end Zenith.Faults
