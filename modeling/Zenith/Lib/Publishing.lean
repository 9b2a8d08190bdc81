import Mathlib
import Zenith.Lib.Runs

/-!
# Programs that read shared state piece by piece

`Reads σ ε α` computes an `α` from a state `σ`, or gives up with an `ε`, by one read after the other. Others may change
the state between two reads; `atOnce` is what the program makes of a state that nobody changes.

A `Publisher` is a group of tasks that change a shared state and then publish what a program reads from it. Nothing
keeps one task from publishing what it read before another one changed the state. `settled_current`: as long as this
only happens while another task is still to publish what it reads later, what is published in the end is what the
program makes of the final state.
-/

namespace Zenith.Publishing

open Zenith.Runs

inductive Reads (σ ε α : Type)
  | done (value : α)
  | failed (e : ε)
  | read (next : σ → Reads σ ε α)

namespace Reads

variable {σ ε α β : Type}

protected def bind : Reads σ ε α → (α → Reads σ ε β) → Reads σ ε β
  | done value, next => next value
  | failed e, _ => failed e
  | read rest, next => read fun s => (rest s).bind next

instance : Monad (Reads σ ε) where
  pure := done
  bind := Reads.bind

/-- One read. -/
def get (view : σ → α) : Reads σ ε α := read fun s => done (view s)

def ofExcept : Except ε α → Reads σ ε α
  | .ok value => done value
  | .error e => failed e

/-- What the program makes of a state that nobody changes. -/
def atOnce (s : σ) : Reads σ ε α → Except ε α
  | done value => .ok value
  | failed e => .error e
  | read rest => (rest s).atOnce s

/-- The next read. -/
def advance (s : σ) : Reads σ ε α → Reads σ ε α
  | read rest => rest s
  | program => program

variable {s : σ}

@[simp] theorem atOnce_pure (value : α) : (pure value : Reads σ ε α).atOnce s = .ok value := rfl

@[simp] theorem atOnce_failed (e : ε) : (failed e : Reads σ ε α).atOnce s = .error e := rfl

@[simp] theorem atOnce_get (view : σ → α) : (get view : Reads σ ε α).atOnce s = .ok (view s) := rfl

@[simp] theorem atOnce_bind (program : Reads σ ε α) (next : α → Reads σ ε β) :
    (program >>= next).atOnce s = program.atOnce s >>= fun value => (next value).atOnce s := by
  show (program.bind next).atOnce s = _
  induction program with
  | done value => rfl
  | failed e => rfl
  | read rest ih => exact ih s

theorem atOnce_get_bind (view : σ → α) (next : α → Reads σ ε β) :
    (get view >>= next).atOnce s = (next (view s)).atOnce s := rfl

theorem atOnce_ofExcept_bind (result : Except ε α) (next : α → Reads σ ε β) :
    (ofExcept result >>= next).atOnce s = result >>= fun value => (next value).atOnce s := by
  cases result <;> rfl

@[simp] theorem atOnce_ite (p : Prop) [Decidable p] (program program' : Reads σ ε α) :
    (if p then program else program').atOnce s = if p then program.atOnce s else program'.atOnce s :=
  apply_ite _ p program program'

/-- Reading on in the same state makes no difference. -/
@[simp] theorem atOnce_advance (program : Reads σ ε α) : (program.advance s).atOnce s = program.atOnce s := by
  cases program <;> rfl

end Reads

/-! ## Publishers -/

/-- Changes `χ` of a state `σ`, which may also change what is published, and the program, with an input that is not
part of the state. -/
structure Publisher (σ χ τ ε π : Type) where
  change : χ → σ → σ
  touch : χ → π → π
  program : τ → Reads σ ε π

inductive Task (σ χ τ ε π : Type)
  | changing (changes : List χ)
  | reading (input : τ) (began : Nat) (program : Reads σ ε π)
  | returned

def Task.isReturned {σ χ τ ε π : Type} : Task σ χ τ ε π → Bool
  | returned => true
  | _ => false

/-- `version` counts the changes. -/
structure System (σ χ τ ε π : Type) where
  state : σ
  published : π
  version : Nat
  tasks : List (Task σ χ τ ε π)

inductive Step (χ τ : Type)
  | call (changes : List χ)
  | change (task : Nat)
  | start (task : Nat) (input : τ)
  | read (task : Nat)
  | publish (task : Nat)

namespace Publisher

variable {σ χ τ ε π : Type} (P : Publisher σ χ τ ε π)

/-- The next step of a task. One that it cannot take changes nothing; a program that failed is stuck. -/
def step (s : System σ χ τ ε π) : Step χ τ → System σ χ τ ε π
  | .call changes => { s with tasks := s.tasks ++ [.changing changes] }
  | .change i =>
    match s.tasks[i]? with
    | some (.changing (change :: changes)) =>
      { s with
        state := P.change change s.state
        published := P.touch change s.published
        version := s.version + 1
        tasks := s.tasks.set i (.changing changes) }
    | _ => s
  | .start i input =>
    match s.tasks[i]? with
    | some (.changing []) => { s with tasks := s.tasks.set i (.reading input s.version (P.program input)) }
    | _ => s
  | .read i =>
    match s.tasks[i]? with
    | some (.reading input began program) =>
      { s with tasks := s.tasks.set i (.reading input began (program.advance s.state)) }
    | _ => s
  | .publish i =>
    match s.tasks[i]? with
    | some (.reading _ _ (.done value)) =>
      { s with published := value, tasks := s.tasks.set i .returned }
    | _ => s

/-- The change that a step makes. -/
def changeOf (s : System σ χ τ ε π) : Step χ τ → Option χ
  | .change i =>
    match s.tasks[i]? with
    | some (.changing (change :: _)) => some change
    | _ => none
  | _ => none

/-- The system when one task is called on a state. -/
def initial (state : σ) (published : π) (changes : List χ) : System σ χ τ ε π :=
  { state, published, version := 0, tasks := [.changing changes] }

/-- Every task has returned. -/
def Settled (s : System σ χ τ ε π) : Prop := ∀ task ∈ s.tasks, task.isReturned = true

/-- The program publishes this when it runs on the state as it is. -/
def Current (s : System σ χ τ ε π) : Prop := ∃ input, (P.program input).atOnce s.state = .ok s.published

/-- A task that is going to publish what it reads from the state as it is, or after it changed it. -/
def Pending (version : Nat) : Task σ χ τ ε π → Prop
  | .changing _ => True
  | .reading _ began _ => began = version
  | .returned => False

instance (version : Nat) : (task : Task σ χ τ ε π) → Decidable (Pending version task)
  | .changing _ => .isTrue trivial
  | .reading _ began _ => inferInstanceAs (Decidable (began = version))
  | .returned => .isFalse id

/-- The version at which the reads of what a step publishes began. -/
def publishedFrom (s : System σ χ τ ε π) : Step χ τ → Option Nat
  | .publish i =>
    match s.tasks[i]? with
    | some (.reading _ began (.done _)) => some began
    | _ => none
  | _ => none

/-- What was read before the latest change is only published while another task is still to publish something later. -/
def FreshLast (s : System σ χ τ ε π) (op : Step χ τ) : Prop :=
  ∀ began ∈ publishedFrom s op, began = s.version ∨ ∃ task ∈ s.tasks, Pending s.version task

instance (s : System σ χ τ ε π) (op : Step χ τ) : Decidable (FreshLast s op) :=
  inferInstanceAs (Decidable (∀ began ∈ publishedFrom s op, began = s.version ∨ ∃ task ∈ s.tasks, Pending s.version task))

structure Invariant (s : System σ χ τ ε π) : Prop where
  began_le : ∀ {input began program}, .reading input began program ∈ s.tasks → began ≤ s.version
  same : ∀ {input program}, .reading input s.version program ∈ s.tasks →
    program.atOnce s.state = (P.program input).atOnce s.state
  current : P.Current s ∨ ∃ task ∈ s.tasks, Pending s.version task

variable {P}

/-- Only the changes change the state. -/
theorem state_step (s : System σ χ τ ε π) (op : Step χ τ) :
    (P.step s op).state = (changeOf s op).elim s.state (P.change · s.state) := by
  cases op with
  | call => rfl
  | change i =>
    unfold step changeOf
    dsimp only
    rcases s.tasks[i]? with - | (- | ⟨change, changes⟩) | ⟨input, began, program⟩ | - <;> rfl
  | start i =>
    unfold step
    dsimp only
    split <;> rfl
  | read i =>
    unfold step
    dsimp only
    split <;> rfl
  | publish i =>
    unfold step
    dsimp only
    split <;> rfl

/-- What all changes of a run keep. -/
theorem state_invariant {I : σ → Prop} {ok : χ → Prop} (hchange : ∀ change state, ok change → I state → I (P.change change state))
    {s : System σ χ τ ε π} {ops : List (Step χ τ)} (hs : I s.state)
    (hops : StepsMeet P.step (fun s op => ∀ change ∈ changeOf s op, ok change) s ops) : I (run P.step s ops).state := by
  refine run_invariant (I := fun s => I s.state) (fun s op h hop => ?_) hs hops
  rw [state_step]
  cases hchanged : changeOf s op with
  | none => exact h
  | some change => exact hchange change s.state (hop change hchanged) h

theorem mem_of_mem_set {α : Type} {l : List α} {i : Nat} {a b : α} (h : b ∈ l.set i a) : b ∈ l ∨ b = a :=
  List.mem_or_eq_of_mem_set h

theorem mem_set_of_getElem? {α : Type} {l : List α} {i : Nat} {a : α} (b : α) (h : l[i]? = some a) : b ∈ l.set i b :=
  List.mem_set (List.getElem?_eq_some_iff.mp h).1 b

/-- A task other than the one replaced stays. -/
theorem mem_set_of_ne {α : Type} {l : List α} {i : Nat} {a b : α} (c : α) (h : l[i]? = some a) (hb : b ∈ l) (hne : b ≠ a) :
    b ∈ l.set i c := by
  obtain ⟨j, hj⟩ := List.mem_iff_getElem?.mp hb
  refine List.mem_of_getElem? (i := j) ?_
  rw [List.getElem?_set_ne, hj]
  rintro rfl
  exact hne (Option.some.inj (hj.symm.trans h))

theorem invariant_initial (state : σ) (published : π) (changes : List χ) : P.Invariant (initial state published changes) where
  began_le h := nomatch List.mem_singleton.mp h
  same h := nomatch List.mem_singleton.mp h
  current := .inr ⟨_, List.mem_singleton.mpr rfl, trivial⟩

theorem invariant_step {s : System σ χ τ ε π} (h : P.Invariant s) {op : Step χ τ} (hop : FreshLast s op) :
    P.Invariant (P.step s op) := by
  cases op with
  | call changes =>
    refine ⟨fun hmem => ?_, fun hmem => ?_, .inr ⟨_, List.mem_append_right _ (List.mem_singleton.mpr rfl), trivial⟩⟩
    · rcases List.mem_append.mp hmem with hmem | hmem
      · exact h.began_le hmem
      · exact nomatch List.mem_singleton.mp hmem
    · rcases List.mem_append.mp hmem with hmem | hmem
      · exact h.same hmem
      · exact nomatch List.mem_singleton.mp hmem
  | change i =>
    unfold step
    dsimp only
    split
    case h_1 change changes htask =>
      refine ⟨fun hmem => ?_, fun hmem => ?_, .inr ⟨_, mem_set_of_getElem? _ htask, trivial⟩⟩
      · rcases mem_of_mem_set hmem with hmem | heq
        · exact Nat.le_succ_of_le (h.began_le hmem)
        · exact nomatch heq
      · -- All reads of the new version are still to come.
        rcases mem_of_mem_set hmem with hmem | heq
        · exact absurd (h.began_le hmem) (Nat.not_succ_le_self _)
        · exact nomatch heq
    case h_2 => exact h
  | start i input =>
    unfold step
    dsimp only
    split
    case h_1 htask =>
      refine ⟨fun hmem => ?_, fun hmem => ?_, .inr ⟨_, mem_set_of_getElem? _ htask, rfl⟩⟩
      · rcases mem_of_mem_set hmem with hmem | heq
        · exact h.began_le hmem
        · obtain ⟨rfl, rfl, rfl⟩ := Task.reading.inj heq
          exact Nat.le_refl _
      · rcases mem_of_mem_set hmem with hmem | heq
        · exact h.same hmem
        · obtain ⟨rfl, -, rfl⟩ := Task.reading.inj heq
          rfl
    case h_2 => exact h
  | read i =>
    unfold step
    dsimp only
    split
    case h_1 input began program htask =>
      have hold := List.mem_of_getElem? htask
      refine ⟨fun hmem => ?_, fun hmem => ?_, h.current.imp_right ?_⟩
      · rcases mem_of_mem_set hmem with hmem | heq
        · exact h.began_le hmem
        · obtain ⟨rfl, rfl, rfl⟩ := Task.reading.inj heq
          exact h.began_le hold
      · rcases mem_of_mem_set hmem with hmem | heq
        · exact h.same hmem
        · obtain ⟨rfl, hbegan, rfl⟩ := Task.reading.inj heq
          obtain rfl : s.version = began := hbegan
          exact (Reads.atOnce_advance program).trans (h.same hold)
      · rintro ⟨task, hmem, hpending⟩
        by_cases heq : task = .reading input began program
        · subst heq
          exact ⟨_, mem_set_of_getElem? _ htask, hpending⟩
        · exact ⟨task, mem_set_of_ne _ htask hmem heq, hpending⟩
    case h_2 => exact h
  | publish i =>
    unfold FreshLast publishedFrom at hop
    unfold step
    dsimp only at hop ⊢
    split at hop
    case h_1 input began value htask =>
      have hold := List.mem_of_getElem? htask
      refine ⟨fun hmem => ?_, fun hmem => ?_, ?_⟩
      · rcases mem_of_mem_set hmem with hmem | heq
        · exact h.began_le hmem
        · exact nomatch heq
      · rcases mem_of_mem_set hmem with hmem | heq
        · exact h.same hmem
        · exact nomatch heq
      · by_cases hbegan : began = s.version
        · subst hbegan
          exact .inl ⟨input, (h.same hold).symm⟩
        · -- What it publishes is old, so another task is still to publish.
          obtain ⟨task, hmem, hpending⟩ := (hop began rfl).resolve_left hbegan
          refine .inr ⟨task, mem_set_of_ne _ htask hmem ?_, hpending⟩
          rintro rfl
          exact hbegan hpending
    case h_2 => exact h

/-- If what is old is only published while something later is still to be, then, when all tasks have returned, what is
published is what the program makes of the state. -/
theorem settled_current {state : σ} {published : π} {changes : List χ} {ops : List (Step χ τ)}
    (hops : StepsMeet P.step FreshLast (initial state published changes) ops)
    (hsettled : Settled (run P.step (initial state published changes) ops)) :
    P.Current (run P.step (initial state published changes) ops) := by
  have hinv := run_invariant (I := P.Invariant) (fun _ _ h hop => invariant_step h hop) (invariant_initial state published changes) hops
  rcases hinv.current with hcurrent | ⟨task, hmem, hpending⟩
  · exact hcurrent
  · have hreturned := hsettled task hmem
    cases task with
    | returned => exact hpending.elim
    | _ => exact nomatch hreturned

end Publisher

end Zenith.Publishing
