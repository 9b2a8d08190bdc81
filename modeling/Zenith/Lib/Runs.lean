import Mathlib

/-!
# Runs of a state machine

A machine is a step function `σ → ι → σ` over inputs `ι`; `run` folds it over a list of inputs.
An invariant kept by every step of a run holds in the state it reaches. `StepsMeet` restricts a
run to steps that meet a condition on the state before the step; `run_invariant` is the rule all
run theorems of the development are instances of.

Machines that answer each input are run by `runOut`, and by `runExcept` when a step may fail.
`simulation` is the refinement rule: related states answer alike, as long as the abstract machine
stays within `K`, so the failing machine does not fail and answers as the abstract one does.
-/

namespace Zenith.Runs

variable {σ ι : Type}

/-- The state after the inputs `ops`. -/
def run (step : σ → ι → σ) (s : σ) (ops : List ι) : σ := ops.foldl step s

@[simp] theorem run_nil (step : σ → ι → σ) (s : σ) : run step s [] = s := rfl

@[simp] theorem run_cons (step : σ → ι → σ) (s : σ) (op : ι) (ops : List ι) :
    run step s (op :: ops) = run step (step s op) ops := rfl

@[simp] theorem run_append (step : σ → ι → σ) (s : σ) (ops ops' : List ι) :
    run step s (ops ++ ops') = run step (run step s ops) ops' := by
  simp [run, List.foldl_append]

/-- Every step of the run is taken in a state in which its input meets `ok`. -/
def StepsMeet (step : σ → ι → σ) (ok : σ → ι → Prop) : σ → List ι → Prop
  | _, [] => True
  | s, op :: ops => ok s op ∧ StepsMeet step ok (step s op) ops

instance StepsMeet.decidable {step : σ → ι → σ} {ok : σ → ι → Prop} [∀ s op, Decidable (ok s op)] :
    (s : σ) → (ops : List ι) → Decidable (StepsMeet step ok s ops)
  | _, [] => .isTrue trivial
  | s, op :: ops => @instDecidableAnd _ _ _ (StepsMeet.decidable (step s op) ops)

variable {step : σ → ι → σ} {ok : σ → ι → Prop} {s : σ}

theorem StepsMeet.append {ops ops' : List ι} :
    StepsMeet step ok s (ops ++ ops') ↔
      StepsMeet step ok s ops ∧ StepsMeet step ok (run step s ops) ops' := by
  induction ops generalizing s with
  | nil => simp [StepsMeet]
  | cons op ops ih => simp [StepsMeet, ih, and_assoc]

variable {ops : List ι}

theorem StepsMeet.and {ok ok' : σ → ι → Prop}
    (h : StepsMeet step ok s ops) (h' : StepsMeet step ok' s ops) :
    StepsMeet step (fun s op => ok s op ∧ ok' s op) s ops := by
  induction ops generalizing s with
  | nil => trivial
  | cons op ops ih => exact ⟨⟨h.1, h'.1⟩, ih h.2 h'.2⟩

/-- Steps meet a condition when it holds at every cut of the run. -/
theorem StepsMeet.of_cuts (h : ∀ before op after, ops = before ++ op :: after → ok (run step s before) op) :
    StepsMeet step ok s ops := by
  induction ops generalizing s with
  | nil => trivial
  | cons op ops ih =>
    refine ⟨h [] op ops rfl, ih fun before op' after heq => ?_⟩
    exact h (op :: before) op' after (by rw [heq]; rfl)

variable {I : σ → Prop}

/-- An invariant that every step meeting `ok` keeps holds at the end of every run whose steps all
meet `ok`. -/
theorem run_invariant (hstep : ∀ s op, I s → ok s op → I (step s op)) (hs : I s)
    (hok : StepsMeet step ok s ops) : I (run step s ops) := by
  induction ops generalizing s with
  | nil => exact hs
  | cons op ops ih => exact ih (hstep s op hs hok.1) hok.2

/-- The rule for machines whose steps keep the invariant without a condition. -/
theorem run_invariant_of_forall (hstep : ∀ s op, I s → I (step s op)) (hs : I s) (ops : List ι) :
    I (run step s ops) := by
  induction ops generalizing s with
  | nil => exact hs
  | cons op ops ih => exact ih (hstep s op hs)

/-- What follows from the invariant and the condition of a step holds of every step of the run. -/
theorem StepsMeet.of_invariant {ok good : σ → ι → Prop}
    (hstep : ∀ s op, I s → ok s op → I (step s op)) (hgood : ∀ s op, I s → ok s op → good s op)
    (hs : I s) (hok : StepsMeet step ok s ops) : StepsMeet step good s ops := by
  induction ops generalizing s with
  | nil => trivial
  | cons op ops ih => exact ⟨hgood s op hs hok.1, ih (hstep s op hs hok.1) hok.2⟩

/-- The rule for exact conditions: where the invariant and `P` hold, `P` holds after a step exactly if the step
meets `ok`. So `P` holds in all states of a run exactly if all its steps meet `ok`. -/
theorem StepsMeet.always_iff {I P : σ → Prop}
    (hstep : ∀ s op, I s → P s → I (step s op) ∧ (P (step s op) ↔ ok s op)) (hs : I s) (hP : P s)
    (ops : List ι) :
    (∀ before after, ops = before ++ after → P (run step s before)) ↔ StepsMeet step ok s ops := by
  induction ops generalizing s with
  | nil =>
    refine iff_of_true (fun before after heq => ?_) trivial
    rw [(List.nil_eq_append_iff.mp heq).1]
    exact hP
  | cons op ops ih =>
    obtain ⟨hs', hiff⟩ := hstep s op hs hP
    constructor
    · intro hall
      have hnext := hall [op] ops rfl
      refine ⟨hiff.mp hnext, (ih hs' hnext).mp fun before after heq => ?_⟩
      exact hall (op :: before) after (by rw [heq, List.cons_append])
    · rintro ⟨hok, hrest⟩ before after heq
      cases before with
      | nil => exact hP
      | cons first before =>
        obtain ⟨rfl, rfl⟩ := List.cons.inj heq
        exact (ih hs' (hiff.mpr hok)).mpr hrest before after rfl

/-! ## Machines with answers -/

section
variable {τ ω ε : Type}

/-- The state after the inputs, and the answer to each of them. -/
def runOut (step : τ → ι → τ × ω) (t : τ) : List ι → τ × List ω
  | [] => (t, [])
  | op :: ops =>
    let (t, out) := step t op
    let (t, outs) := runOut step t ops
    (t, out :: outs)

/-- The same for steps that may fail: the run stops at the first failure. -/
def runExcept (step : σ → ι → Except ε (σ × ω)) (s : σ) : List ι → Except ε (σ × List ω)
  | [] => .ok (s, [])
  | op :: ops =>
    match step s op with
    | .error e => .error e
    | .ok (s, out) =>
      match runExcept step s ops with
      | .error e => .error e
      | .ok (s, outs) => .ok (s, out :: outs)

@[simp] theorem runOut_cons (step : τ → ι → τ × ω) (t : τ) (op : ι) (ops : List ι) :
    runOut step t (op :: ops) = ((runOut step (step t op).1 ops).1,
      (step t op).2 :: (runOut step (step t op).1 ops).2) := rfl

theorem runOut_invariant {step : τ → ι → τ × ω} {I : τ → Prop}
    (hstep : ∀ t op, I t → I (step t op).1) {t : τ} (ht : I t) (ops : List ι) :
    I (runOut step t ops).1 := by
  induction ops generalizing t with
  | nil => exact ht
  | cons op ops ih => exact ih (hstep t op ht)

/-- What holds at the end of a run and is inherited by the state before a step held at its
start. -/
theorem ok_of_runOut {step : τ → ι → τ × ω} {ok : τ → Prop}
    (hback : ∀ t op, ok (step t op).1 → ok t) {t : τ} {ops : List ι}
    (h : ok (runOut step t ops).1) : ok t := by
  induction ops generalizing t with
  | nil => exact h
  | cons op ops ih => exact hback t op (ih h)

theorem simulation {cstep : σ → ι → Except ε (σ × ω)} {astep : τ → ι → τ × ω}
    {R : σ → τ → Prop} {K : τ → Prop} (hback : ∀ t op, K (astep t op).1 → K t)
    (hstep : ∀ s t op, R s t → K (astep t op).1 →
      ∃ s', cstep s op = .ok (s', (astep t op).2) ∧ R s' (astep t op).1)
    {s : σ} {t : τ} {ops : List ι} (hR : R s t) (hok : K (runOut astep t ops).1) :
    ∃ s', runExcept cstep s ops = .ok (s', (runOut astep t ops).2) ∧
      R s' (runOut astep t ops).1 := by
  induction ops generalizing s t with
  | nil => exact ⟨s, rfl, hR⟩
  | cons op ops ih =>
    obtain ⟨s₁, hs₁, hR₁⟩ := hstep s t op hR (ok_of_runOut hback hok)
    obtain ⟨s₂, hs₂, hR₂⟩ := ih hR₁ hok
    refine ⟨s₂, ?_, hR₂⟩
    simp only [runExcept, hs₁, hs₂, runOut_cons]

end

end Zenith.Runs
