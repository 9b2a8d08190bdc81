import Mathlib
import Zenith.Accounts.TokenAuthority

/-!
# Pre- and postconditions of the token calls

`Triple` is the judgement for one call on the token slot: from a precondition the call never lowers
the generation of the slot, establishes `J` wherever it waits, and ends with its postcondition or,
when it fails, with `E`. The rules follow the code: one for each operation, one for the sequence of
two calls.

`triple_prepareInner` is the specification of `prepare_inner` that both theorems on runs use. It
is stated for any assertion `K` that has the properties of `Kept`: what one entry of the log and one
change of the slot does to `K`. The assertion does not see the account state, so all the writes of
it are covered at once by `Kept.view`.
-/

namespace Zenith.Accounts

open Zenith.LockedTasks Zenith.Tables SlotTask

abbrev Log := List SlotEntry

abbrev asked (request : Request) (slot : TokenSlot) : SlotEntry := .asked request slot

abbrev answered (request : Request) (answer : request.Answer) (slot : TokenSlot) : SlotEntry :=
  .answered request answer slot

/-- The generation of the slot did not decrease. -/
def Newer (before after : TokenSlot) : Prop := before.tokens.generation ≤ after.tokens.generation

/-- Any answer may come. -/
abbrev anyAnswer : ∀ q, Request.Answer q → Prop := fun _ _ => True

theorem newer_refl (slot : TokenSlot) : Newer slot slot := le_rfl

theorem newer_trans (a b c : TokenSlot) (hab : Newer a b) (hbc : Newer b c) : Newer a c :=
  hab.trans hbc

/-! ## Triples for calls on the slot -/

section Triples

variable (allows : ∀ q, Request.Answer q → Prop) (J E : TokenSlot → Log → Prop)

/-- From `pre` the call keeps the generation from decreasing, establishes `J` where it waits, and
ends with `Q` or, when it fails, with `E`. -/
def Triple {α : Type} (pre : TokenSlot → Log → Prop) (x : SlotTask α)
    (Q : α → TokenSlot → Log → Prop) : Prop :=
  ∀ s₀ s log, Newer s₀ s → pre s log →
    Safe allows Newer J (fun a s₀ s log => Newer s₀ s ∧ match a with
      | .ok a => Q a s log
      | .error _ => E s log) x.run s₀ s log

variable {allows J E}
variable {α β : Type} {pre : TokenSlot → Log → Prop}

theorem Triple.bind {x : SlotTask α} {f : α → SlotTask β} {M : α → TokenSlot → Log → Prop}
    {Q : β → TokenSlot → Log → Prop} (hx : Triple allows J E pre x M)
    (hf : ∀ a, Triple allows J E (M a) (f a) Q) : Triple allows J E pre (x >>= f) Q := by
  intro s₀ s log hnewer hpre
  rw [safe_except_bind]
  refine (hx s₀ s log hnewer hpre).mono fun a s₀ s log h => ?_
  cases a with
  | ok a => exact hf a s₀ s log h.1 h.2
  | error e => exact h

variable {Q : α → TokenSlot → Log → Prop}

theorem Triple.pure {a : α}
    (h : ∀ s log, pre s log → Q a s log) :
    Triple allows J E pre (Pure.pure a : SlotTask α) Q :=
  fun _ s log hnewer hpre => ⟨hnewer, h s log hpre⟩

theorem Triple.throw {e : TokenAuthorityError}
    (h : ∀ s log, pre s log → E s log) :
    Triple allows J E pre (MonadExcept.throw e : SlotTask α) Q :=
  fun _ s log hnewer hpre => ⟨hnewer, h s log hpre⟩

theorem Triple.slot : Triple allows J E pre slot (fun v s log => v = s ∧ pre s log) :=
  fun _ _ _ hnewer hpre => ⟨hnewer, rfl, hpre⟩

variable {Q : Unit → TokenSlot → Log → Prop}

theorem Triple.write {next : TokenSlot}
    (h : ∀ s log, pre s log → Newer s next ∧ Q () next log) :
    Triple allows J E pre (write next) Q :=
  fun _ s log hnewer hpre => ⟨hnewer.trans (h s log hpre).1, (h s log hpre).2⟩

theorem Triple.persist {tokens : TokenSet}
    (hJ : ∀ s log, pre s log → J s (log ++ [asked (.persist tokens) s]))
    (hok : ∀ s log, pre s log → Q () s
      (log ++ [asked (.persist tokens) s] ++ [answered (.persist tokens) (.ok ()) s]))
    (herror : ∀ s log failure, pre s log → E s
      (log ++ [asked (.persist tokens) s] ++ [answered (.persist tokens) (.error failure) s])) :
    Triple allows J E pre (persist tokens) Q := by
  intro s₀ s log hnewer hpre
  refine ⟨hnewer, hJ s log hpre, fun answer _ => ?_⟩
  match answer with
  | .ok () => exact ⟨le_rfl, hok s log hpre⟩
  | .error failure => exact ⟨le_rfl, herror s log failure hpre⟩

theorem Triple.persistAuthState {authState : AccountAuthState}
    (hJ : ∀ s log, pre s log → J s (log ++ [asked (.persistAuthState authState) s]))
    (hok : ∀ s log, pre s log → Q () s (log ++ [asked (.persistAuthState authState) s] ++
      [answered (.persistAuthState authState) (.ok ()) s]))
    (herror : ∀ s log failure, pre s log → E s (log ++ [asked (.persistAuthState authState) s] ++
      [answered (.persistAuthState authState) (.error failure) s])) :
    Triple allows J E pre (persistAuthState authState) Q := by
  intro s₀ s log hnewer hpre
  refine ⟨hnewer, hJ s log hpre, fun answer _ => ?_⟩
  match answer with
  | .ok () => exact ⟨le_rfl, hok s log hpre⟩
  | .error failure => exact ⟨le_rfl, herror s log failure hpre⟩

theorem Triple.refresh {token : String} {nowMs : Nat}
    {Q : Except TokenRefreshFailure TokenRefresh → TokenSlot → Log → Prop}
    (hJ : ∀ s log, pre s log → J s (log ++ [asked (.refresh token nowMs) s]))
    (hpost : ∀ s log answer, pre s log → allows (.refresh token nowMs) answer → Q answer s
      (log ++ [asked (.refresh token nowMs) s] ++ [answered (.refresh token nowMs) answer s])) :
    Triple allows J E pre (refresh token nowMs) Q :=
  fun _ s log hnewer hpre =>
    ⟨hnewer, hJ s log hpre, fun answer hanswer => ⟨le_rfl, hpost s log answer hpre hanswer⟩⟩

end Triples

/-! ## What a prepare call keeps -/

/-- Entries that say nothing about the tokens: requests to persist, everything about the account
state, and failures to persist. -/
def Quiet : SlotEntry → Prop
  | .asked (.persist _) _ => True
  | .asked (.persistAuthState _) _ => True
  | .answered (.persist _) (.error _) _ => True
  | .answered (.persistAuthState _) _ _ => True
  | _ => False

/-- The log has a successful refresh. -/
def Renewed (log : Log) : Prop :=
  ∃ token nowMs refresh s, answered (.refresh token nowMs) (.ok refresh) s ∈ log

/-- What an assertion `K` on the slot and the log needs, so that a call to prepare the tokens keeps
it, with `J` where it waits, and delivers tokens for which `D` holds. -/
structure Kept (allows : ∀ q, Request.Answer q → Prop) (nowMs refreshSkewMs : Nat)
    (persistence : Bool) (J K : TokenSlot → Log → Prop)
    (D : PreparedToken → TokenSlot → Log → Prop) : Prop where
  view : ∀ {s s' log}, s'.tokens = s.tokens → s'.persistencePending = s.persistencePending →
    K s log → K s' log
  quiet : ∀ {s log entry}, Quiet entry → K s log → K s (log ++ [entry])
  waits : ∀ {s log}, K s log → J s log
  persisted : ∀ {s log}, K s log → K { s with persistencePending := false }
    (log ++ [answered (.persist s.tokens) (.ok ()) s])
  asks : ∀ {s log token}, K s log → s.persistencePending = false →
    s.tokens.isAccessUsable nowMs refreshSkewMs = false → s.tokens.refreshToken = some token →
    J s (log ++ [asked (.refresh token nowMs) s])
  accepts : ∀ {s log token refresh}, K s log → s.persistencePending = false →
    s.tokens.isAccessUsable nowMs refreshSkewMs = false → s.tokens.refreshToken = some token →
    allows (.refresh token nowMs) (.ok refresh) →
    K { s with tokens := s.tokens.refreshed refresh nowMs, persistencePending := persistence }
      (log ++ [asked (.refresh token nowMs) s] ++ [answered (.refresh token nowMs) (.ok refresh) s])
  rejects : ∀ {s log token failure}, K s log →
    allows (.refresh token nowMs) (.error failure) →
    K s (log ++ [asked (.refresh token nowMs) s] ++
      [answered (.refresh token nowMs) (.error failure) s])
  ready : ∀ {s log}, K s log → s.persistencePending = false →
    s.tokens.isAccessUsable nowMs refreshSkewMs = true → D ⟨.ready, s.tokens⟩ s log
  renewed : ∀ {s log}, K s log → s.persistencePending = false → Renewed log →
    D ⟨.refreshed, s.tokens⟩ s log

theorem Renewed.append {log : Log} (h : Renewed log) (entries : Log) : Renewed (log ++ entries) := by
  obtain ⟨token, nowMs, refresh, s, hmem⟩ := h
  exact ⟨token, nowMs, refresh, s, List.mem_append_left _ hmem⟩

section Prepare

variable {allows : ∀ q, Request.Answer q → Prop} {nowMs refreshSkewMs : Nat} {persistence : Bool}
  {J K : TokenSlot → Log → Prop} {D : PreparedToken → TokenSlot → Log → Prop}

/-- `K` and a property of the slot that the account state does not enter. -/
def With (K : TokenSlot → Log → Prop) (P : TokenSet → Bool → Log → Prop) (s : TokenSlot)
    (log : Log) : Prop :=
  K s log ∧ P s.tokens s.persistencePending log

/-- Writing the account state through changes neither the tokens nor what is known of them. -/
theorem triple_persistSlotAuthState (hk : Kept allows nowMs refreshSkewMs persistence J K D)
    {P : TokenSet → Bool → Log → Prop}
    (hP : ∀ tokens pending log entry, P tokens pending log → P tokens pending (log ++ [entry])) :
    Triple allows J K (With K P) (persistSlotAuthState persistence) (fun _ => With K P) := by
  unfold persistSlotAuthState
  cases persistence with
  | false => exact Triple.pure fun s log h => h
  | true =>
    refine Triple.slot.bind fun slot => ?_
    refine (Triple.write (Q := fun _ s log => s.authState = slot.authState ∧ With K P s log)
      fun s log h => ?_).bind fun _ => ?_
    · obtain ⟨rfl, h⟩ := h
      exact ⟨le_rfl, rfl, hk.view (s := slot) rfl rfl h.1, h.2⟩
    refine (Triple.persistAuthState (Q := fun _ => With K P) (fun s log h => ?_)
      (fun s log h => ?_) fun s log failure h => ?_).bind fun _ => ?_
    · exact hk.waits (hk.quiet trivial h.2.1)
    · exact ⟨hk.quiet trivial (hk.quiet trivial h.2.1), hP _ _ _ _ (hP _ _ _ _ h.2.2)⟩
    · exact hk.quiet trivial (hk.quiet trivial h.2.1)
    refine Triple.slot.bind fun slot => ?_
    refine Triple.write fun s log h => ?_
    obtain ⟨rfl, h⟩ := h
    exact ⟨le_rfl, hk.view (s := slot) rfl rfl h.1, h.2⟩

theorem triple_requirePersistence {pre : TokenSlot → Log → Prop} (h : ∀ s log, pre s log → K s log) :
    Triple allows J K pre (requirePersistence persistence) (fun _ => pre) := by
  unfold requirePersistence
  split
  case isTrue => exact Triple.pure fun s log hpre => hpre
  case isFalse => exact Triple.throw h

/-- Nothing waits to be persisted. -/
def Settled (_ : TokenSet) (pending : Bool) (_ : Log) : Prop := pending = false

theorem triple_flushTokens (hk : Kept allows nowMs refreshSkewMs persistence J K D) :
    Triple allows J K K (flushTokens persistence) (fun _ => With K Settled) := by
  unfold flushTokens
  refine Triple.slot.bind fun slot => ?_
  split
  case isFalse hpending =>
    refine Triple.pure fun s log h => ⟨h.2, ?_⟩
    simpa [Settled, h.1] using hpending
  case isTrue =>
    refine (triple_requirePersistence fun s log h => h.2).bind fun _ => ?_
    refine (Triple.persist (Q := fun _ s log => slot = s ∧
      K { slot with persistencePending := false } log) (fun s log h => ?_) (fun s log h => ?_)
      fun s log failure h => ?_).bind fun _ => ?_
    · exact hk.waits (hk.quiet trivial h.2)
    · obtain ⟨rfl, h⟩ := h
      exact ⟨rfl, hk.persisted (hk.quiet trivial h)⟩
    · exact hk.quiet trivial (hk.quiet trivial h.2)
    refine Triple.write fun s log h => ?_
    obtain ⟨rfl, h⟩ := h
    exact ⟨le_rfl, hk.view (s := { slot with persistencePending := false }) rfl rfl h, rfl⟩

variable {log : Log}

theorem settled_append {tokens : TokenSet} {pending : Bool} {entry : SlotEntry}
    (h : Settled tokens pending log) : Settled tokens pending (log ++ [entry]) := h

theorem triple_flushAuthState (hk : Kept allows nowMs refreshSkewMs persistence J K D) :
    Triple allows J K (With K Settled) (flushAuthState persistence) (fun _ => With K Settled) := by
  unfold flushAuthState
  refine Triple.slot.bind fun slot => ?_
  split
  case isFalse => exact Triple.pure fun s log h => h.2
  case isTrue =>
    refine (triple_requirePersistence fun s log h => h.2.1).bind fun _ => ?_
    refine (Triple.persistAuthState (Q := fun _ s log => slot = s ∧ With K Settled s log)
      (fun s log h => ?_) (fun s log h => ?_) fun s log failure h => ?_).bind fun _ => ?_
    · exact hk.waits (hk.quiet trivial h.2.1)
    · exact ⟨h.1, hk.quiet trivial (hk.quiet trivial h.2.1), h.2.2⟩
    · exact hk.quiet trivial (hk.quiet trivial h.2.1)
    refine Triple.write fun s log h => ?_
    obtain ⟨rfl, h⟩ := h
    exact ⟨le_rfl, hk.view (s := slot) rfl rfl h.1, h.2⟩

theorem triple_healReusedToken (hk : Kept allows nowMs refreshSkewMs persistence J K D) :
    Triple allows J K (With K Settled) (healReusedToken persistence) (fun _ => With K Settled) := by
  unfold healReusedToken
  refine Triple.slot.bind fun slot => ?_
  split
  case isFalse => exact Triple.pure fun s log h => h.2
  case isTrue =>
    refine (Triple.write (Q := fun _ => With K Settled) fun s log h => ?_).bind fun _ => ?_
    · obtain ⟨rfl, h⟩ := h
      exact ⟨le_rfl, hk.view (s := slot) rfl rfl h.1, h.2⟩
    exact triple_persistSlotAuthState hk fun _ _ _ _ => settled_append

/-- The slot holds the tokens of a refresh that the log has, and they are persisted. -/
def SettledWith (renewed : TokenSet) (tokens : TokenSet) (pending : Bool) (log : Log) : Prop :=
  tokens = renewed ∧ pending = false ∧ Renewed log

/-- The answer of the refresh adapter is in the log, and the slot is as it was asked for. -/
def Answered (K : TokenSlot → Log → Prop) (nowMs refreshSkewMs : Nat) (token : String)
    (answer : Except TokenRefreshFailure TokenRefresh) (s : TokenSlot) (log : Log) : Prop :=
  ∃ before, K s before ∧ s.persistencePending = false ∧
    s.tokens.isAccessUsable nowMs refreshSkewMs = false ∧ s.tokens.refreshToken = some token ∧
    log = before ++ [asked (.refresh token nowMs) s] ++ [answered (.refresh token nowMs) answer s]

theorem newer_refreshed (slot : TokenSlot) (refresh : TokenRefresh) (nowMs : Nat) :
    slot.tokens.generation ≤ (slot.tokens.refreshed refresh nowMs).generation :=
  le_satAdd slot.tokens.generation_lt 1

theorem renewed_append_settledWith {renewed tokens : TokenSet} {pending : Bool}
    {entry : SlotEntry} (h : SettledWith renewed tokens pending log) :
    SettledWith renewed tokens pending (log ++ [entry]) :=
  ⟨h.1, h.2.1, h.2.2.append _⟩

variable {token : String}

variable {refresh : TokenRefresh}

theorem Answered.accepted (hk : Kept allows nowMs refreshSkewMs persistence J K D)
    (hallows : allows (.refresh token nowMs) (.ok refresh))
    {s : TokenSlot} (h : Answered K nowMs refreshSkewMs token (.ok refresh) s log) :
    K { s with
        tokens := s.tokens.refreshed refresh nowMs
        persistencePending := persistence } log ∧ Renewed log := by
  obtain ⟨before, hbefore, hpending, husable, htoken, rfl⟩ := h
  refine ⟨hk.accepts hbefore hpending husable htoken hallows, token, nowMs, refresh, s, ?_⟩
  exact List.mem_append_right _ List.mem_cons_self

/-- The end of an accepted refresh. -/
theorem triple_return_renewed (hk : Kept allows nowMs refreshSkewMs persistence J K D)
    (tokens : TokenSet) :
    Triple allows J K (With K (SettledWith tokens)) (pure ⟨.refreshed, tokens⟩ : SlotTask _) D := by
  refine Triple.pure fun s log h => ?_
  obtain ⟨hK, rfl, hpending, hrenewed⟩ := h
  exact hk.renewed hK hpending hrenewed

theorem triple_acceptRefresh (hk : Kept allows nowMs refreshSkewMs persistence J K D)
    (hallows : allows (.refresh token nowMs) (.ok refresh)) :
    Triple allows J K (Answered K nowMs refreshSkewMs token (.ok refresh))
      (acceptRefresh refresh nowMs persistence) D := by
  unfold acceptRefresh
  refine Triple.slot.bind fun slot => ?_
  cases persistence with
  | false =>
    refine (Triple.write (Q := fun _ => With K (SettledWith (slot.tokens.refreshed refresh nowMs)))
      fun s log h => ?_).bind fun _ => triple_return_renewed hk _
    obtain ⟨rfl, h⟩ := h
    obtain ⟨hK, hrenewed⟩ := h.accepted hk hallows
    obtain ⟨-, -, hpending, -⟩ := h
    refine ⟨newer_refreshed slot refresh nowMs, ?_, rfl, hpending, hrenewed⟩
    exact hk.view (s := { slot with
      tokens := slot.tokens.refreshed refresh nowMs, persistencePending := false }) rfl hpending hK
  | true =>
    refine (Triple.write (Q := fun _ s log => s.tokens = slot.tokens.refreshed refresh nowMs ∧
      K s log ∧ Renewed log) fun s log h => ?_).bind fun _ => ?_
    · obtain ⟨rfl, h⟩ := h
      obtain ⟨hK, hrenewed⟩ := h.accepted hk hallows
      refine ⟨newer_refreshed slot refresh nowMs, rfl, ?_, hrenewed⟩
      exact hk.view (s := { slot with
        tokens := slot.tokens.refreshed refresh nowMs, persistencePending := true }) rfl rfl hK
    refine (Triple.persist (Q := fun _ s log => s.tokens = slot.tokens.refreshed refresh nowMs ∧
      K { s with persistencePending := false } log ∧ Renewed log) (fun s log h => ?_)
      (fun s log h => ?_) fun s log failure h => ?_).bind fun _ => ?_
    · exact hk.waits (hk.quiet trivial h.2.1)
    · obtain ⟨htokens, hK, hrenewed⟩ := h
      refine ⟨htokens, ?_, (hrenewed.append _).append _⟩
      rw [← htokens]
      exact hk.persisted (hk.quiet trivial hK)
    · exact hk.quiet trivial (hk.quiet trivial h.2.1)
    refine Triple.slot.bind fun current => ?_
    refine (Triple.write (Q := fun _ => With K (SettledWith (slot.tokens.refreshed refresh nowMs)))
      fun s log h => ?_).bind fun _ => ?_
    · obtain ⟨rfl, htokens, hK, hrenewed⟩ := h
      exact ⟨le_rfl, hK, htokens, rfl, hrenewed⟩
    exact (triple_persistSlotAuthState hk fun _ _ _ _ => renewed_append_settledWith).bind
      fun _ => triple_return_renewed hk _

theorem triple_rejectRefresh (hk : Kept allows nowMs refreshSkewMs persistence J K D)
    {failure : TokenRefreshFailure} (previousAuthState : AccountAuthState)
    (hallows : allows (.refresh token nowMs) (.error failure)) :
    Triple allows J K (Answered K nowMs refreshSkewMs token (.error failure))
      (rejectRefresh failure previousAuthState persistence) D := by
  have hrejects : ∀ {s log}, Answered K nowMs refreshSkewMs token (.error failure) s log →
      With K Settled s log := by
    rintro s log ⟨before, hbefore, hpending, -, -, rfl⟩
    exact ⟨hk.rejects hbefore hallows, hpending⟩
  unfold rejectRefresh
  refine Triple.slot.bind fun slot => ?_
  cases failure.reauthReason with
  | some reason =>
    refine (Triple.write (Q := fun _ => With K Settled) fun s log h => ?_).bind fun _ => ?_
    · obtain ⟨rfl, h⟩ := h
      exact ⟨le_rfl, hk.view (s := slot) rfl rfl (hrejects h).1, (hrejects h).2⟩
    refine (triple_persistSlotAuthState hk (P := Settled)
      fun _ _ _ _ => settled_append).bind fun _ => ?_
    exact Triple.throw fun s log h => h.1
  | none =>
    refine (Triple.write (Q := fun _ => K) fun s log h => ?_).bind fun _ => ?_
    · obtain ⟨rfl, h⟩ := h
      exact ⟨le_rfl, hk.view (s := slot) rfl rfl (hrejects h).1⟩
    exact Triple.throw fun s log h => h

theorem triple_selectTokens (hk : Kept allows nowMs refreshSkewMs persistence J K D) :
    Triple allows J K (With K Settled) (selectTokens nowMs refreshSkewMs persistence) D := by
  unfold selectTokens
  refine Triple.slot.bind fun slot => ?_
  split
  case h_1 => exact Triple.throw fun s log h => h.2.1
  case h_2 =>
    split
    case isTrue husable =>
      refine Triple.pure fun s log h => ?_
      obtain ⟨rfl, hK, hpending⟩ := h
      exact hk.ready hK hpending husable
    case isFalse husable =>
      rw [Bool.not_eq_true] at husable
      cases htoken : slot.tokens.refreshToken with
      | none =>
        refine (Triple.write (Q := fun _ => With K Settled) fun s log h => ?_).bind fun _ => ?_
        · obtain ⟨rfl, h⟩ := h
          exact ⟨le_rfl, hk.view (s := slot) rfl rfl h.1, h.2⟩
        refine (triple_persistSlotAuthState hk (P := Settled)
          fun _ _ _ _ => settled_append).bind fun _ => ?_
        exact Triple.throw fun s log h => h.1
      | some token =>
        refine (Triple.write (Q := fun _ s log => s.tokens = slot.tokens ∧ With K Settled s log)
          fun s log h => ?_).bind fun _ => ?_
        · obtain ⟨rfl, h⟩ := h
          exact ⟨le_rfl, rfl, hk.view (s := slot) rfl rfl h.1, h.2⟩
        refine (Triple.refresh (Q := fun answer s log =>
          allows (.refresh token nowMs) answer ∧
            Answered K nowMs refreshSkewMs token answer s log)
          (fun s log h => ?_) fun s log answer h hallows => ?_).bind fun answer => ?_
        · obtain ⟨htokens, hK, hpending⟩ := h
          rw [← htokens] at husable htoken
          exact hk.asks hK hpending husable htoken
        · obtain ⟨htokens, hK, hpending⟩ := h
          rw [← htokens] at husable htoken
          exact ⟨hallows, log, hK, hpending, husable, htoken, rfl⟩
        cases answer with
        | ok refresh =>
          exact fun s₀ s log hnewer h => triple_acceptRefresh hk h.1 s₀ s log hnewer h.2
        | error failure =>
          exact fun s₀ s log hnewer h =>
            triple_rejectRefresh hk slot.authState h.1 s₀ s log hnewer h.2

/-- The rule for `prepareInner`: it keeps what is kept, and what it delivers has `D`. -/
theorem triple_prepareInner (hk : Kept allows nowMs refreshSkewMs persistence J K D) :
    Triple allows J K K (prepareInner nowMs refreshSkewMs persistence) D := by
  refine (triple_flushTokens hk).bind fun _ => ?_
  refine (triple_flushAuthState hk).bind fun _ => ?_
  refine (triple_healReusedToken hk).bind fun _ => ?_
  exact triple_selectTokens hk

theorem newer_invalidated (slot : TokenSlot) (nowMs : Nat) :
    slot.tokens.generation ≤ (slot.tokens.invalidated nowMs).generation :=
  le_satAdd slot.tokens.generation_lt 1

/-- The rule for a report: besides what a prepare call needs, `K` has to survive the report. -/
theorem triple_invalidate (hk : Kept allows nowMs refreshSkewMs persistence J K D)
    (failedGeneration : Option Nat)
    (hinvalidates : ∀ {s log}, K s log →
      K { s with tokens := s.tokens.invalidated nowMs, persistencePending := true } log) :
    Triple allows J K K (invalidateAccessGenerationAndPersist failedGeneration nowMs)
      (fun _ => K) := by
  unfold invalidateAccessGenerationAndPersist
  refine Triple.slot.bind fun slot => ?_
  split
  case isTrue => exact Triple.pure fun s log h => h.2
  case isFalse =>
    refine (Triple.write (Q := fun _ s log => s.tokens = slot.tokens.invalidated nowMs ∧ K s log)
      fun s log h => ?_).bind fun _ => ?_
    · obtain ⟨rfl, h⟩ := h
      exact ⟨newer_invalidated slot nowMs, rfl, hinvalidates h⟩
    refine (Triple.persist (Q := fun _ s log => K { s with persistencePending := false } log)
      (fun s log h => ?_) (fun s log h => ?_) fun s log failure h => ?_).bind fun _ => ?_
    · exact hk.waits (hk.quiet trivial h.2)
    · rw [← h.1]
      exact hk.persisted (hk.quiet trivial h.2)
    · exact hk.quiet trivial (hk.quiet trivial h.2)
    refine Triple.slot.bind fun current => ?_
    refine (Triple.write (Q := fun _ => K) fun s log h => ?_).bind fun _ => ?_
    · obtain ⟨rfl, h⟩ := h
      exact ⟨le_rfl, h⟩
    exact Triple.pure fun s log h => h

end Prepare

end Zenith.Accounts
