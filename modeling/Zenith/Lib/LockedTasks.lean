import Mathlib
import Zenith.Lib.Runs

/-!
# Asynchronous tasks under one lock

A `Task` is an asynchronous call on a shared state of type `σ`. It reads and writes the state, and
it waits for answers to requests of type `Q`; a request `q` is answered by a value of `R q`. The
call holds the lock of the state from its first step to its last, so between two waits it runs
alone. A waiting call may be abandoned: it is dropped where it waits and its lock is released.

`LockedTasks.step` is the interleaving semantics of any number of calls that queue for the lock:
a call acquires the free lock, the environment answers the request of the holder, or the holder is
abandoned. The log records every request, answer and result, with the shared state at that moment.

`Safe` is the weakest precondition of a task: it can rely on the answers the environment `allows`,
keeps the guarantee `G` between two waits, and establishes `J` where it waits and `Post` where it
ends. `safe_bind` composes it, and `run_safe` is the rule for runs: if every call is safe, what
holds while the lock is free (`I`) or while it is held (`J`) holds in every run.
-/

namespace Zenith.LockedTasks

open Zenith.Runs

variable {σ Q C α β : Type} {R : Q → Type}

/-- A call on the shared state, with the points where it waits. -/
inductive Task (σ Q : Type) (R : Q → Type) (α : Type) : Type
  | done (a : α)
  | get (k : σ → Task σ Q R α)
  | set (s : σ) (k : Task σ Q R α)
  | await (q : Q) (k : R q → Task σ Q R α)

namespace Task

def bind : Task σ Q R α → (α → Task σ Q R β) → Task σ Q R β
  | done a, f => f a
  | get k, f => get fun s => (k s).bind f
  | set s k, f => set s (k.bind f)
  | await q k, f => await q fun r => (k r).bind f

instance : Monad (Task σ Q R) where
  pure := done
  bind := bind

end Task

/-- What happened: a request was made, it was answered, a call returned. Each entry has the shared
state of that moment. -/
inductive Entry (σ Q : Type) (R : Q → Type) (C α : Type) : Type
  | asked (q : Q) (s : σ)
  | answered (q : Q) (r : R q) (s : σ)
  | returned (c : C) (a : α) (s : σ)

/-- The call that holds the lock, and what it waits for. -/
structure Holder (σ Q : Type) (R : Q → Type) (C α : Type) : Type where
  call : C
  request : Q
  resume : R request → Task σ Q R α

structure Config (σ Q : Type) (R : Q → Type) (C α : Type) : Type where
  shared : σ
  holder : Option (Holder σ Q R C α) := none
  log : List (Entry σ Q R C α) := []

/-- A move of the system: a call gets the lock, the holder is answered, the holder is abandoned. -/
inductive Event (Q : Type) (R : Q → Type) (C : Type) : Type
  | acquire (c : C)
  | respond (answer : ∀ q, R q)
  | abandon

/-- Runs a task up to its next wait or to its end. -/
def advance (c : C) : Task σ Q R α → σ → List (Entry σ Q R C α) → Config σ Q R C α
  | .done a, s, log => { shared := s, log := log ++ [.returned c a s] }
  | .get k, s, log => advance c (k s) s log
  | .set s k, _, log => advance c k s log
  | .await q k, s, log => { shared := s, holder := some ⟨c, q, k⟩, log := log ++ [.asked q s] }

/-- A call that finds the lock taken keeps waiting for it. -/
def step (program : C → Task σ Q R α) (config : Config σ Q R C α) :
    Event Q R C → Config σ Q R C α
  | .acquire c =>
    match config.holder with
    | none => advance c (program c) config.shared config.log
    | some _ => config
  | .respond answer =>
    match config.holder with
    | none => config
    | some holder =>
      advance holder.call (holder.resume (answer holder.request)) config.shared
        (config.log ++ [.answered holder.request (answer holder.request) config.shared])
  | .abandon => { config with holder := none }

theorem log_prefix_advance (c : C) (t : Task σ Q R α) (s : σ) (log : List (Entry σ Q R C α)) :
    log <+: (advance c t s log).log := by
  induction t generalizing s log with
  | done a => exact List.prefix_append _ _
  | get k ih => exact ih s s log
  | set s' k ih => exact ih s' log
  | await q k _ => exact List.prefix_append _ _

theorem log_prefix_step (program : C → Task σ Q R α) (config : Config σ Q R C α)
    (event : Event Q R C) : config.log <+: (step program config event).log := by
  obtain ⟨shared, holder, log⟩ := config
  cases event with
  | acquire c =>
    cases holder with
    | none => exact log_prefix_advance c (program c) shared log
    | some holder => exact List.prefix_rfl
  | respond answer =>
    cases holder with
    | none => exact List.prefix_rfl
    | some holder => exact (List.prefix_append _ _).trans (log_prefix_advance _ _ _ _)
  | abandon => exact List.prefix_rfl

/-- What happened stays in the log. -/
theorem log_prefix_run (program : C → Task σ Q R α) (config : Config σ Q R C α)
    (events : List (Event Q R C)) : config.log <+: (run (step program) config events).log := by
  induction events generalizing config with
  | nil => exact List.prefix_rfl
  | cons event events ih => exact (log_prefix_step program config event).trans (ih _)

/-! ## Safety of tasks -/

section
variable (allows : ∀ q, R q → Prop) (G : σ → σ → Prop) (J : σ → List (Entry σ Q R C α) → Prop)

/-- From the shared state `s` the task is safe. `s₀` is the state of its last wait, or of its start:
`G` relates it to the state of the next wait, and `post` to the state at the end. -/
def Safe (post : β → σ → σ → List (Entry σ Q R C α) → Prop) :
    Task σ Q R β → σ → σ → List (Entry σ Q R C α) → Prop
  | .done a, s₀, s, log => post a s₀ s log
  | .get k, s₀, s, log => Safe post (k s) s₀ s log
  | .set s k, s₀, _, log => Safe post k s₀ s log
  | .await q k, s₀, s, log =>
    G s₀ s ∧ J s (log ++ [.asked q s]) ∧
      ∀ r, allows q r → Safe post (k r) s s (log ++ [.asked q s] ++ [.answered q r s])

end

section
variable {allows : ∀ q, R q → Prop} {G : σ → σ → Prop} {J : σ → List (Entry σ Q R C α) → Prop}
  {post : β → σ → σ → List (Entry σ Q R C α) → Prop} {s₀ s : σ} {log : List (Entry σ Q R C α)}

theorem safe_bind {γ : Type} (t : Task σ Q R γ) (f : γ → Task σ Q R β) :
    Safe allows G J post (t >>= f) s₀ s log ↔
      Safe allows G J (fun a s₀ s log => Safe allows G J post (f a) s₀ s log) t s₀ s log := by
  induction t generalizing s₀ s log with
  | done a => exact Iff.rfl
  | get k ih => exact ih s
  | set s k ih => exact ih
  | await q k ih =>
    refine and_congr_right fun _ => and_congr_right fun _ => forall_congr' fun r => ?_
    exact imp_congr_right fun _ => ih r

theorem Safe.mono {post' : β → σ → σ → List (Entry σ Q R C α) → Prop} {t : Task σ Q R β}
    (h : Safe allows G J post t s₀ s log)
    (himp : ∀ a s₀ s log, post a s₀ s log → post' a s₀ s log) :
    Safe allows G J post' t s₀ s log := by
  induction t generalizing s₀ s log with
  | done a => exact himp a _ _ _ h
  | get k ih => exact ih s h
  | set s k ih => exact ih h
  | await q k ih => exact ⟨h.1, h.2.1, fun r hr => ih r (h.2.2 r hr)⟩

/-- The rule for calls that may fail: a failure ends the call with the failure. -/
theorem safe_except_bind {ε γ δ : Type}
    {post : Except ε δ → σ → σ → List (Entry σ Q R C α) → Prop}
    (t : ExceptT ε (Task σ Q R) γ) (f : γ → ExceptT ε (Task σ Q R) δ) :
    Safe allows G J post (t >>= f).run s₀ s log ↔
      Safe allows G J (fun a s₀ s log => match a with
        | .ok a => Safe allows G J post (f a).run s₀ s log
        | .error e => post (.error e) s₀ s log) t.run s₀ s log := by
  have heq : (t >>= f).run = (t.run >>= fun a => match a with
      | .ok a => (f a).run
      | .error e => Task.done (.error e)) := rfl
  rw [heq, safe_bind]
  have hcont : ∀ a : Except ε γ, (fun s₀ s log => Safe allows G J post
      (match a with | .ok a => (f a).run | .error e => Task.done (.error e)) s₀ s log) =
      (fun s₀ s log => match a with
        | .ok a => Safe allows G J post (f a).run s₀ s log
        | .error e => post (.error e) s₀ s log) := by
    intro a
    cases a <;> rfl
  simp only [funext hcont]

end

/-! ## Runs of many calls -/

section
variable {program : C → Task σ Q R α} {allows : ∀ q, R q → Prop} {G : σ → σ → Prop}
  {I J : σ → List (Entry σ Q R C α) → Prop} {calls : C → Prop} {mayAbandon : Prop}

/-- While the lock is free `I` holds. While it is held `J` holds, and the holder is safe: it ends,
keeping `G`, in a state in which `I` holds with its result logged. -/
def Config.Fine (allows : ∀ q, R q → Prop) (G : σ → σ → Prop)
    (I J : σ → List (Entry σ Q R C α) → Prop) (config : Config σ Q R C α) : Prop :=
  match config.holder with
  | none => I config.shared config.log
  | some holder => J config.shared config.log ∧ ∀ r, allows holder.request r →
      Safe allows G J
        (fun a s₀ s log => G s₀ s ∧ I s (log ++ [.returned holder.call a s]))
        (holder.resume r) config.shared config.shared
        (config.log ++ [.answered holder.request r config.shared])

/-- The calls that `calls` admits, the answers that `allows` admits, and abandonment if it may
happen at all. -/
def Event.Ok (calls : C → Prop) (allows : ∀ q, R q → Prop) (mayAbandon : Prop) : Event Q R C → Prop
  | .acquire c => calls c
  | .respond answer => ∀ q, allows q (answer q)
  | .abandon => mayAbandon

theorem fine_advance {c : C} {t : Task σ Q R α} {s₀ s : σ} {log : List (Entry σ Q R C α)}
    (h : Safe allows G J (fun a s₀ s log => G s₀ s ∧ I s (log ++ [.returned c a s])) t s₀ s log) :
    (advance c t s log).Fine allows G I J ∧ G s₀ (advance c t s log).shared := by
  induction t generalizing s₀ s log with
  | done a => exact ⟨h.2, h.1⟩
  | get k ih => exact ih s h
  | set s k ih => exact ih h
  | await q k _ => exact ⟨⟨h.2.1, h.2.2⟩, h.1⟩

theorem fine_step (hrefl : ∀ s, G s s)
    (hsafe : ∀ c, calls c → ∀ s log, I s log → Safe allows G J
      (fun a s₀ s log => G s₀ s ∧ I s (log ++ [.returned c a s])) (program c) s s log)
    (habandon : mayAbandon → ∀ s log, J s log → I s log)
    {config : Config σ Q R C α} (h : config.Fine allows G I J) {event : Event Q R C}
    (hok : event.Ok calls allows mayAbandon) :
    (step program config event).Fine allows G I J ∧
      G config.shared (step program config event).shared := by
  obtain ⟨shared, holder, log⟩ := config
  cases event with
  | acquire c =>
    cases holder with
    | none => exact fine_advance (hsafe c hok shared log h)
    | some holder => exact ⟨h, hrefl _⟩
  | respond answer =>
    cases holder with
    | none => exact ⟨h, hrefl _⟩
    | some holder => exact fine_advance (h.2 (answer holder.request) (hok holder.request))
  | abandon =>
    refine ⟨?_, hrefl _⟩
    cases holder with
    | none => exact h
    | some holder => exact habandon hok shared log h.1

/-- Every run of safe calls stays fine and keeps the guarantee from any earlier state to any later
one. -/
theorem run_safe (hrefl : ∀ s, G s s) (htrans : ∀ a b c, G a b → G b c → G a c)
    (hsafe : ∀ c, calls c → ∀ s log, I s log → Safe allows G J
      (fun a s₀ s log => G s₀ s ∧ I s (log ++ [.returned c a s])) (program c) s s log)
    (habandon : mayAbandon → ∀ s log, J s log → I s log)
    {config : Config σ Q R C α} (h : config.Fine allows G I J) (events : List (Event Q R C))
    (hok : ∀ event ∈ events, event.Ok calls allows mayAbandon) :
    (run (step program) config events).Fine allows G I J ∧
      G config.shared (run (step program) config events).shared := by
  induction events generalizing config with
  | nil => exact ⟨h, hrefl _⟩
  | cons event events ih =>
    rw [List.forall_mem_cons] at hok
    obtain ⟨hfine, hG⟩ := fine_step hrefl hsafe habandon h hok.1
    obtain ⟨hrun, hG'⟩ := ih hfine hok.2
    exact ⟨hrun, htrans _ _ _ hG hG'⟩

end

end Zenith.LockedTasks
