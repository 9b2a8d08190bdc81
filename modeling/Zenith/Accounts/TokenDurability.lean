import Mathlib
import Zenith.Accounts.TokenTriples

/-!
# Tokens are durable

What `prepare_and_persist` returns is what was persisted last, and a refresh token that was received
is never lost: whichever of its waits a call fails at or is abandoned at, the next call finds the
tokens in the slot and persists them before it returns them.

`Durable` is the invariant of every run, both while the slot is free and while a call waits.
-/

namespace Zenith.Accounts

open Zenith.LockedTasks Zenith.Tables Zenith.Runs SlotTask

/-! ## What the log says -/

/-- The tokens that were persisted last, the registered ones if none were. -/
def persistedTokens (registered : TokenSet) (log : Log) : TokenSet :=
  log.foldl (fun tokens entry => match entry with
    | .answered (.persist persisted) (.ok ()) _ => persisted
    | _ => tokens) registered

/-- The refresh token that was received last: a refresh may bring none. -/
def heldRefreshToken (registered : TokenSet) (log : Log) : Option String :=
  log.foldl (fun held entry => match entry with
    | .answered (.refresh _ _) (.ok refresh) _ => refresh.refreshToken.or held
    | _ => held) registered.refreshToken

/-- The generation of the slot is at least that of every token set built from a refresh. -/
def AboveBuilt (generation : Nat) (log : Log) : Prop :=
  ∀ token nowMs refresh slot, answered (.refresh token nowMs) (.ok refresh) slot ∈ log →
    (slot.tokens.refreshed refresh nowMs).generation ≤ generation

/-- Tokens that may be handed out after the entries of `log`. -/
structure Deliverable (registered : TokenSet) (log : Log) (tokens : TokenSet) : Prop where
  persisted : tokens = persistedTokens registered log
  held : tokens.refreshToken = heldRefreshToken registered log
  above : AboveBuilt tokens.generation log

/-- Every call that returned tokens returned deliverable ones. -/
def AllDelivered (registered : TokenSet) (log : Log) : Prop :=
  ∀ i call token slot, log[i]? = some (.returned call (.prepared token) slot) →
    Deliverable registered (log.take i) token.tokens

variable {registered : TokenSet} {log : Log}

theorem AllDelivered.snoc {entry : SlotEntry}
    (h : AllDelivered registered log)
    (hentry : ∀ call token slot, entry = .returned call (.prepared token) slot →
      Deliverable registered log token.tokens) : AllDelivered registered (log ++ [entry]) := by
  intro i call token slot hi
  obtain hlt | heq | hgt := lt_trichotomy i log.length
  · rw [List.getElem?_append_left hlt] at hi
    rw [List.take_append_of_le_length hlt.le]
    exact h i call token slot hi
  · rw [heq, List.getElem?_concat_length] at hi
    rw [heq, List.take_left]
    exact hentry call token slot (Option.some.inj hi)
  · rw [List.getElem?_eq_none (by simp; omega)] at hi
    exact nomatch hi

theorem AboveBuilt.snoc {generation : Nat} {entry : SlotEntry}
    (h : AboveBuilt generation log)
    (hentry : ∀ token nowMs refresh slot, entry = answered (.refresh token nowMs) (.ok refresh) slot →
      (slot.tokens.refreshed refresh nowMs).generation ≤ generation) :
    AboveBuilt generation (log ++ [entry]) := by
  intro token nowMs refresh slot hmem
  rcases List.mem_append.mp hmem with hmem | hmem
  · exact h token nowMs refresh slot hmem
  · exact hentry token nowMs refresh slot (List.mem_singleton.mp hmem).symm

theorem AboveBuilt.mono {generation generation' : Nat} (h : AboveBuilt generation log)
    (hle : generation ≤ generation') : AboveBuilt generation' log :=
  fun token nowMs refresh slot hmem => (h token nowMs refresh slot hmem).trans hle

/-! ## The invariant -/

/-- What holds of the slot and the log at every moment of a run. -/
structure Durable (registered : TokenSet) (slot : TokenSlot) (log : Log) : Prop where
  settled : slot.persistencePending = false → slot.tokens = persistedTokens registered log
  held : slot.tokens.refreshToken = heldRefreshToken registered log
  above : AboveBuilt slot.tokens.generation log
  delivered : AllDelivered registered log

section

variable {registered : TokenSet} {slot : TokenSlot} {log : Log}

theorem durable_register (tokens : TokenSet) (authState : AccountAuthState) :
    Durable tokens (TokenSlot.register tokens authState) [] where
  settled _ := rfl
  held := rfl
  above _ _ _ _ h := nomatch h
  delivered _ _ _ _ h := nomatch h

theorem Durable.deliverable (h : Durable registered slot log)
    (hpending : slot.persistencePending = false) : Deliverable registered log slot.tokens :=
  ⟨h.settled hpending, h.held, h.above⟩

/-- An entry that neither persists tokens nor brings nor returns any. -/
def Plain : SlotEntry → Prop
  | .asked _ _ => True
  | .answered (.persist _) (.ok ()) _ => False
  | .answered (.persist _) (.error _) _ => True
  | .answered (.persistAuthState _) _ _ => True
  | .answered (.refresh _ _) (.ok _) _ => False
  | .answered (.refresh _ _) (.error _) _ => True
  | .returned _ (.prepared _) _ => False
  | .returned _ _ _ => True

variable {entry : SlotEntry}

theorem persistedTokens_concat_of_plain (h : Plain entry) :
    persistedTokens registered (log ++ [entry]) = persistedTokens registered log := by
  rw [persistedTokens, List.foldl_concat]
  split
  case h_1 => exact h.elim
  case h_2 => rfl

theorem heldRefreshToken_concat_of_plain (h : Plain entry) :
    heldRefreshToken registered (log ++ [entry]) = heldRefreshToken registered log := by
  rw [heldRefreshToken, List.foldl_concat]
  split
  case h_1 => exact h.elim
  case h_2 => rfl

theorem AboveBuilt.concat_of_plain {generation : Nat}
    (h : AboveBuilt generation log) (hplain : Plain entry) :
    AboveBuilt generation (log ++ [entry]) := by
  refine h.snoc fun token nowMs refresh slot heq => ?_
  subst heq
  exact hplain.elim

theorem AllDelivered.concat_of_plain (h : AllDelivered registered log)
    (hplain : Plain entry) : AllDelivered registered (log ++ [entry]) := by
  refine h.snoc fun call token slot heq => ?_
  subst heq
  exact hplain.elim

theorem Durable.plain (h : Durable registered slot log) (hplain : Plain entry) :
    Durable registered slot (log ++ [entry]) where
  settled hpending := by
    rw [persistedTokens_concat_of_plain hplain]
    exact h.settled hpending
  held := by
    rw [heldRefreshToken_concat_of_plain hplain]
    exact h.held
  above := h.above.concat_of_plain hplain
  delivered := h.delivered.concat_of_plain hplain

theorem Durable.asks (h : Durable registered slot log) (request : Request) (s : TokenSlot) :
    Durable registered slot (log ++ [asked request s]) :=
  h.plain trivial

theorem Quiet.plain (h : Quiet entry) : Plain entry := by
  unfold Quiet at h
  split at h
  case h_5 => exact h.elim
  all_goals trivial

theorem Durable.view {slot' : TokenSlot} (htokens : slot'.tokens = slot.tokens)
    (hpending : slot'.persistencePending = slot.persistencePending)
    (h : Durable registered slot log) : Durable registered slot' log where
  settled hsettled := by
    rw [htokens]
    exact h.settled (hpending ▸ hsettled)
  held := by
    rw [htokens]
    exact h.held
  above := by
    rw [htokens]
    exact h.above
  delivered := h.delivered

theorem Durable.persisted (h : Durable registered slot log) :
    Durable registered { slot with persistencePending := false }
      (log ++ [answered (.persist slot.tokens) (.ok ()) slot]) where
  settled _ := by
    rw [persistedTokens, List.foldl_concat]
  held := by
    rw [heldRefreshToken, List.foldl_concat]
    exact h.held
  above := h.above.snoc fun _ _ _ _ heq => nomatch heq
  delivered := h.delivered.snoc fun _ _ _ heq => nomatch heq

/-- The tokens of a refresh take the place of the old ones; they wait to be persisted. -/
theorem Durable.accepts (h : Durable registered slot log) {token : String} {nowMs : Nat}
    {refresh : TokenRefresh} :
    Durable registered
      { slot with tokens := slot.tokens.refreshed refresh nowMs, persistencePending := true }
      (log ++ [answered (.refresh token nowMs) (.ok refresh) slot]) where
  settled hpending := nomatch hpending
  held := by
    rw [heldRefreshToken, List.foldl_concat]
    exact congrArg refresh.refreshToken.or h.held
  above := by
    refine (h.above.mono (newer_refreshed slot refresh nowMs)).snoc ?_
    rintro _ _ _ _ ⟨⟩
    exact le_rfl
  delivered := h.delivered.snoc fun _ _ _ heq => nomatch heq

theorem Durable.returns {call : SlotCall} {token : PreparedToken}
    (h : Durable registered slot log) (htoken : Deliverable registered log token.tokens) :
    Durable registered slot (log ++ [.returned call (.prepared token) slot]) where
  settled hpending := by
    rw [persistedTokens, List.foldl_concat]
    exact h.settled hpending
  held := by
    rw [heldRefreshToken, List.foldl_concat]
    exact h.held
  above := h.above.snoc fun _ _ _ _ heq => nomatch heq
  delivered := by
    refine h.delivered.snoc ?_
    rintro _ _ _ ⟨⟩
    exact htoken

end

theorem durable_kept (registered : TokenSet) (nowMs refreshSkewMs : Nat) :
    Kept anyAnswer nowMs refreshSkewMs true (Durable registered) (Durable registered)
      (fun token slot log => Durable registered slot log ∧
        Deliverable registered log token.tokens) where
  view := Durable.view
  quiet hquiet h := h.plain hquiet.plain
  waits h := h
  persisted := Durable.persisted
  asks h _ _ _ := h.asks _ _
  accepts h _ _ _ _ := (h.asks _ _).accepts
  rejects h _ := (h.asks _ _).plain trivial
  ready h hpending _ := ⟨h, h.deliverable hpending⟩
  renewed h hpending _ := ⟨h, h.deliverable hpending⟩

theorem Durable.invalidates {slot : TokenSlot}
    (h : Durable registered slot log) (nowMs : Nat) :
    Durable registered
      { slot with tokens := slot.tokens.invalidated nowMs, persistencePending := true } log :=
  ⟨nofun, h.held, h.above.mono (newer_invalidated slot nowMs), h.delivered⟩

/-- The calls of an account whose tokens are persisted. -/
def SlotCall.Persists : SlotCall → Prop
  | .prepare _ _ => False
  | .prepareAndPersist _ _ => True
  | .invalidate _ _ => True

theorem safe_persisting (registered : TokenSet) (call : SlotCall) (hcall : call.Persists)
    (slot : TokenSlot) (log : Log) (h : Durable registered slot log) :
    Safe anyAnswer Newer (Durable registered)
      (fun a s₀ s log => Newer s₀ s ∧ Durable registered s (log ++ [.returned call a s]))
      call.program slot slot log := by
  cases call with
  | prepare nowMs refreshSkewMs => exact hcall.elim
  | prepareAndPersist nowMs refreshSkewMs =>
    refine (safe_bind _ _).mpr ?_
    have htriple := triple_prepareInner (durable_kept registered nowMs refreshSkewMs)
    refine (htriple slot slot log le_rfl h).mono fun a s₀ s log hpost => ?_
    cases a with
    | ok token => exact ⟨hpost.1, hpost.2.1.returns hpost.2.2⟩
    | error error => exact ⟨hpost.1, hpost.2.plain trivial⟩
  | invalidate failedGeneration nowMs =>
    refine (safe_bind _ _).mpr ?_
    have htriple := triple_invalidate (durable_kept registered nowMs 0) failedGeneration
      fun h => h.invalidates nowMs
    refine (htriple slot slot log le_rfl h).mono fun a s₀ s log hpost => ?_
    cases a with
    | ok changed => exact ⟨hpost.1, hpost.2.plain trivial⟩
    | error error => exact ⟨hpost.1, hpost.2.plain trivial⟩

/-- A run of calls on an account that was just registered. -/
def slotRun (tokens : TokenSet) (authState : AccountAuthState) (events : List SlotEvent) :
    SlotConfig :=
  run slotStep { shared := TokenSlot.register tokens authState } events

/-- Only calls that persist: the answers, and where calls are abandoned, are arbitrary. -/
def SlotEvent.Persists (event : SlotEvent) : Prop := event.Ok SlotCall.Persists anyAnswer True

theorem run_durable {config : SlotConfig}
    (h : config.Fine anyAnswer Newer (Durable registered) (Durable registered))
    (events : List SlotEvent) (hevents : ∀ event ∈ events, SlotEvent.Persists event) :
    (run slotStep config events).Fine anyAnswer Newer (Durable registered) (Durable registered) ∧
      Newer config.shared (run slotStep config events).shared :=
  run_safe newer_refl newer_trans (safe_persisting registered)
    (fun _ _ _ hdurable => hdurable) h events hevents

theorem Fine.durable {config : SlotConfig}
    (h : config.Fine anyAnswer Newer (Durable registered) (Durable registered)) :
    Durable registered config.shared config.log := by
  unfold Config.Fine at h
  split at h
  case h_1 => exact h
  case h_2 => exact h.1

/-- In every run, tokens that a call returned are the ones that were persisted last before it
returned, with the refresh token that was received last, and at least as new as every token set
that was built from a refresh before; and the generation of the slot never decreases. -/
theorem prepared_tokens_durable (tokens : TokenSet) (authState : AccountAuthState)
    (events : List SlotEvent) (hevents : ∀ event ∈ events, SlotEvent.Persists event) :
    (∀ i call token slot,
      (slotRun tokens authState events).log[i]? = some (.returned call (.prepared token) slot) →
        Deliverable tokens ((slotRun tokens authState events).log.take i) token.tokens) ∧
    ∀ n, (slotRun tokens authState (events.take n)).shared.tokens.generation ≤
      (slotRun tokens authState events).shared.tokens.generation := by
  have hstart : (({ shared := TokenSlot.register tokens authState } : SlotConfig)).Fine anyAnswer
      Newer (Durable tokens) (Durable tokens) := durable_register tokens authState
  refine ⟨(Fine.durable (run_durable hstart events hevents).1).delivered, fun n => ?_⟩
  have hlead := run_durable hstart (events.take n)
    fun event h => hevents event (List.mem_of_mem_take h)
  have hrest := run_durable hlead.1 (events.drop n)
    fun event h => hevents event (List.mem_of_mem_drop h)
  rw [← run_append, List.take_append_drop] at hrest
  exact hrest.2

/-- Tokens that expired at time 5. -/
def sampleTokens : TokenSet where
  accessToken := "access"
  refreshToken := some "refresh"
  idToken := none
  expiresAtMs := some 5
  issuedAtMs := 0
  generation := 0
  access_notBlank := by decide +kernel
  refresh_notBlank := by
    rintro value ⟨⟩
    decide +kernel
  id_notBlank := nofun
  generation_lt := by decide

def sampleRefresh : TokenRefresh where
  accessToken := "access 2"
  refreshToken := some "refresh 2"
  idToken := none
  expiresAtMs := some 100
  access_notBlank := by decide +kernel
  refresh_notBlank := by
    rintro value ⟨⟩
    decide +kernel
  id_notBlank := nofun

def sampleAnswer (persisted : Bool) : ∀ request : Request, request.Answer
  | .persist _ => if persisted then .ok () else .error ⟨"disk"⟩
  | .persistAuthState _ => if persisted then .ok () else .error ⟨"disk"⟩
  | .refresh _ _ => .ok sampleRefresh

/-- The first call refreshes the tokens and fails to persist them; the second one persists what the
first one received, and returns it. -/
def sampleEvents : List SlotEvent :=
  [.acquire (.prepareAndPersist 10 0), .respond (sampleAnswer true), .respond (sampleAnswer false),
    .acquire (.prepareAndPersist 20 0), .respond (sampleAnswer true), .respond (sampleAnswer true)]

theorem sampleEvents_persist : ∀ event ∈ sampleEvents, SlotEvent.Persists event := by
  simp [sampleEvents, SlotEvent.Persists, Event.Ok, SlotCall.Persists]

theorem prepared_tokens_durable_sample : ∃ token slot,
    (slotRun sampleTokens .active sampleEvents).log[9]? =
      some (.returned (.prepareAndPersist 20 0) (.prepared token) slot) ∧
    token.tokens.refreshToken = some "refresh 2" ∧
    Deliverable sampleTokens ((slotRun sampleTokens .active sampleEvents).log.take 9)
      token.tokens := by
  refine ⟨_, _, rfl, rfl, ?_⟩
  exact (prepared_tokens_durable sampleTokens .active sampleEvents sampleEvents_persist).1 9 _ _ _ rfl

end Zenith.Accounts
