import Mathlib
import Zenith.Accounts.TokenDurability

/-!
# One rotation for one failure

Requests that were handed the same token generation fail together and report it together. The first
report that gets the slot moves it to the next generation; the later ones find another generation
and leave it alone. Likewise the first call that finds the tokens expired refreshes them, and the
calls that queued behind it find usable ones.
-/

namespace Zenith.Accounts

open Zenith.LockedTasks Zenith.Tables Zenith.Runs SlotTask

/-! ## The generation never decreases -/

theorem kept_true (nowMs refreshSkewMs : Nat) (persistence : Bool) :
    Kept anyAnswer nowMs refreshSkewMs persistence (fun _ _ => True) (fun _ _ => True)
      (fun _ _ _ => True) := by
  constructor <;> intros <;> trivial

theorem safe_newer (call : SlotCall) (slot : TokenSlot) (log : Log) :
    Safe anyAnswer Newer (fun _ _ => True)
      (fun _ s₀ s _ => Newer s₀ s ∧ True) call.program slot slot log := by
  cases call with
  | prepare nowMs refreshSkewMs =>
    refine (safe_bind _ _).mpr ?_
    have htriple := triple_prepareInner (kept_true nowMs refreshSkewMs false)
    refine (htriple slot slot log le_rfl trivial).mono fun a s₀ s log hpost => ?_
    cases a <;> exact ⟨hpost.1, trivial⟩
  | prepareAndPersist nowMs refreshSkewMs =>
    refine (safe_bind _ _).mpr ?_
    have htriple := triple_prepareInner (kept_true nowMs refreshSkewMs true)
    refine (htriple slot slot log le_rfl trivial).mono fun a s₀ s log hpost => ?_
    cases a <;> exact ⟨hpost.1, trivial⟩
  | invalidate failedGeneration nowMs =>
    refine (safe_bind _ _).mpr ?_
    have htriple := triple_invalidate (kept_true nowMs 0 true) failedGeneration fun _ => trivial
    refine (htriple slot slot log le_rfl trivial).mono fun a s₀ s log hpost => ?_
    cases a <;> exact ⟨hpost.1, trivial⟩

theorem event_ok (event : SlotEvent) : event.Ok (fun _ => True) anyAnswer True := by
  cases event with
  | acquire call => exact trivial
  | respond answer => exact fun _ => trivial
  | abandon => exact trivial

/-- Whatever the calls, the answers and the abandonments. -/
theorem newer_run (slot : TokenSlot) (events events' : List SlotEvent) :
    Newer (run slotStep { shared := slot } events).shared
      (run slotStep { shared := slot } (events ++ events')).shared := by
  have hrun : ∀ (config : SlotConfig) (events : List SlotEvent),
      config.Fine anyAnswer Newer (fun _ _ => True) (fun _ _ => True) →
      (run slotStep config events).Fine anyAnswer Newer (fun _ _ => True) (fun _ _ => True) ∧
        Newer config.shared (run slotStep config events).shared :=
    fun config events h => run_safe newer_refl newer_trans
      (fun call _ slot log _ => safe_newer call slot log) (fun _ _ _ _ => trivial) h events
      fun event _ => event_ok event
  rw [run_append]
  have hfirst := hrun { shared := slot } events trivial
  exact (hrun _ events' hfirst.1).2

/-! ## Reports of one generation -/

/-- What the event of a report does. A report that finds the slot taken keeps waiting for it.
A report of another generation than the one the slot has returns `false` and changes nothing. A
report of the generation of the slot expires the access token, moves the slot to the next generation
and goes on to persist that. -/
inductive ReportStep (generation nowMs : Nat) (before after : SlotConfig) : Prop
  | waits (hholder : before.holder.isSome) (hafter : after = before)
  | ignored (hholder : before.holder = none) (hother : before.shared.tokens.generation ≠ generation)
      (hafter : after = { before with
        log := before.log ++
          [.returned (.invalidate (some generation) nowMs) (.invalidated false) before.shared] })
  | counted (hholder : before.holder = none) (hsame : before.shared.tokens.generation = generation)
      (hexpired : after.shared.tokens.expiresAtMs = some nowMs)
      (hnext : after.shared.tokens.generation = generation + 1)
      (hafter : after.shared = { before.shared with
        tokens := before.shared.tokens.invalidated nowMs
        persistencePending := true })

/-- The task of a report, up to where it persists the new generation. -/
theorem advance_report (slot : TokenSlot) (log : Log) (generation nowMs : Nat) :
    slotStep { shared := slot, log } (.acquire (.invalidate (some generation) nowMs)) =
      advance (.invalidate (some generation) nowMs)
        ((if (some generation).any (slot.tokens.generation ≠ ·) then pure false
          else do
            write { slot with tokens := slot.tokens.invalidated nowMs, persistencePending := true }
            persist (slot.tokens.invalidated nowMs)
            let slot ← SlotTask.slot
            write { slot with persistencePending := false }
            return true : SlotTask Bool).run >>= fun result => match result with
          | .ok changed => return .invalidated changed
          | .error error => return .failed error) slot log := rfl

theorem reportStep (config : SlotConfig) {generation : Nat} (hgeneration : generation < 2 ^ 64 - 1)
    (nowMs : Nat) :
    ReportStep generation nowMs config
      (slotStep config (.acquire (.invalidate (some generation) nowMs))) := by
  obtain ⟨slot, holder, log⟩ := config
  cases holder with
  | some holder => exact .waits rfl rfl
  | none =>
    rw [advance_report]
    by_cases hsame : slot.tokens.generation = generation
    · rw [if_neg (by simpa using hsame)]
      refine .counted rfl hsame rfl ?_ rfl
      have hnext : (slot.tokens.invalidated nowMs).generation = generation + 1 := by
        show satAdd 64 slot.tokens.generation 1 = generation + 1
        rw [hsame]
        exact satAdd_of_lt (by omega)
      exact hnext
    · rw [if_pos (by simpa using hsame)]
      exact .ignored rfl hsame rfl

variable {events : List SlotEvent}

theorem run_take_succ {slot : TokenSlot} {n : Nat} {event : SlotEvent}
    (h : events[n]? = some event) :
    run slotStep { shared := slot } (events.take (n + 1)) =
      slotStep (run slotStep { shared := slot } (events.take n)) event := by
  rw [List.take_add_one, h, Option.toList_some, run_append]
  rfl

/-- A report that counted is the last one that changes the slot. -/
theorem later_report_ignored (slot : TokenSlot) {generation : Nat}
    (hgeneration : generation < 2 ^ 64 - 1) (events : List SlotEvent) {m n nowMs nowMs' : Nat}
    (hlt : m < n) (hm : events[m]? = some (.acquire (.invalidate (some generation) nowMs)))
    (hn : events[n]? = some (.acquire (.invalidate (some generation) nowMs')))
    (hchanged : (run slotStep { shared := slot } (events.take (m + 1))).shared ≠
      (run slotStep { shared := slot } (events.take m)).shared) :
    (run slotStep { shared := slot } (events.take (n + 1))).shared =
      (run slotStep { shared := slot } (events.take n)).shared := by
  have hnewer : Newer (run slotStep { shared := slot } (events.take (m + 1))).shared
      (run slotStep { shared := slot } (events.take n)).shared := by
    have h := newer_run slot (events.take (m + 1)) ((events.take n).drop (m + 1))
    rwa [show events.take (m + 1) ++ (events.take n).drop (m + 1) = events.take n by
      conv_rhs => rw [← List.take_append_drop (m + 1) (events.take n)]
      rw [List.take_take, Nat.min_eq_left hlt]] at h
  rw [run_take_succ hm] at hchanged hnewer
  rw [run_take_succ hn]
  cases reportStep (run slotStep { shared := slot } (events.take m)) hgeneration nowMs with
  | waits _ hafter => exact absurd (congrArg Config.shared hafter) hchanged
  | ignored _ _ hafter => exact absurd (congrArg Config.shared hafter) hchanged
  | counted _ _ _ hnext _ =>
    cases reportStep (run slotStep { shared := slot } (events.take n)) hgeneration nowMs' with
    | waits _ hafter => exact congrArg Config.shared hafter
    | ignored _ _ hafter => rw [hafter]
    | counted _ hsame _ _ _ =>
      have hle : generation + 1 ≤ generation := by
        rw [← hnext]
        conv_rhs => rw [← hsame]
        exact hnewer
      exact absurd hle (Nat.not_succ_le_self generation)

/-! ## Concurrent calls on expired tokens -/

/-- How often the refresh adapter was called. -/
def adapterCalls (log : Log) : Nat :=
  log.countP fun entry => match entry with
    | .asked (.refresh _ _) _ => true
    | _ => false

/-- Nothing about a refresh, and no call that returned tokens. -/
def Untouched : SlotEntry → Prop
  | .asked (.refresh _ _) _ => False
  | .answered (.refresh _ _) _ _ => False
  | .returned _ (.prepared _) _ => False
  | _ => True

/-- Either no call has come to a refresh, or one has and its tokens will do for all calls. -/
inductive Rotated (tokens : TokenSet) (times : Nat → Nat → Prop) (slot : TokenSlot) (log : Log) :
    Prop
  | before (htokens : slot.tokens = tokens) (hlog : ∀ entry ∈ log, Untouched entry)
  | after (hcalls : adapterCalls log = 1)
      (husable : ∀ nowMs skew, times nowMs skew → slot.tokens.isAccessUsable nowMs skew = true)

/-- What is known while a call waits, perhaps for the refresh itself. -/
def CalledOnce (log : Log) : Prop := (∀ entry ∈ log, Untouched entry) ∨ adapterCalls log = 1

/-- The adapter succeeds, with an expiry that is usable for every call. -/
def Succeeds (times : Nat → Nat → Prop) : ∀ q : Request, q.Answer → Prop
  | .refresh _ _, answer => ∃ refresh, answer = .ok refresh ∧
      ∀ nowMs skew, times nowMs skew → accessTokenIsUsable refresh.expiresAtMs nowMs skew = true
  | .persist _, _ => True
  | .persistAuthState _, _ => True

variable {log : Log}

theorem adapterCalls_untouched (h : ∀ entry ∈ log, Untouched entry) :
    adapterCalls log = 0 := by
  refine List.countP_eq_zero.mpr fun entry hmem => ?_
  have hentry := h entry hmem
  cases entry with
  | asked request slot =>
    cases request with
    | refresh _ _ => exact hentry.elim
    | persist _ => exact Bool.false_ne_true
    | persistAuthState _ => exact Bool.false_ne_true
  | answered _ _ _ => exact Bool.false_ne_true
  | returned _ _ _ => exact Bool.false_ne_true

variable {entry : SlotEntry}

theorem untouched_concat (h : ∀ entry ∈ log, Untouched entry)
    (hentry : Untouched entry) : ∀ other ∈ log ++ [entry], Untouched other := by
  intro other hmem
  rcases List.mem_append.mp hmem with hmem | hmem
  · exact h other hmem
  · rw [List.mem_singleton.mp hmem]
    exact hentry

theorem adapterCalls_concat (log : Log) (entry : SlotEntry) :
    adapterCalls (log ++ [entry]) = adapterCalls log + adapterCalls [entry] :=
  List.countP_append

/-- Entries that are no call of the adapter. -/
def NoCall : SlotEntry → Prop
  | .asked (.refresh _ _) _ => False
  | _ => True

theorem adapterCalls_noCall (h : NoCall entry) : adapterCalls [entry] = 0 := by
  refine List.countP_eq_zero.mpr fun other hmem => ?_
  rw [List.mem_singleton.mp hmem]
  cases entry with
  | asked request slot =>
    cases request with
    | refresh _ _ => exact h.elim
    | persist _ => exact Bool.false_ne_true
    | persistAuthState _ => exact Bool.false_ne_true
  | answered _ _ _ => exact Bool.false_ne_true
  | returned _ _ _ => exact Bool.false_ne_true

theorem Quiet.untouched (h : Quiet entry) : Untouched entry ∧ NoCall entry := by
  unfold Quiet at h
  split at h
  case h_5 => exact h.elim
  all_goals exact ⟨trivial, trivial⟩

section

variable {tokens : TokenSet} {times : Nat → Nat → Prop} {slot : TokenSlot} {log : Log}

theorem Rotated.concat {entry : SlotEntry} (h : Rotated tokens times slot log)
    (hentry : Untouched entry ∧ NoCall entry) : Rotated tokens times slot (log ++ [entry]) := by
  cases h with
  | before htokens hlog => exact .before htokens (untouched_concat hlog hentry.1)
  | after hcalls husable =>
    refine .after ?_ husable
    rw [adapterCalls_concat, hcalls, adapterCalls_noCall hentry.2]

theorem Rotated.view {slot' : TokenSlot} (htokens : slot'.tokens = slot.tokens)
    (h : Rotated tokens times slot log) : Rotated tokens times slot' log := by
  cases h with
  | before hbefore hlog => exact .before (htokens.trans hbefore) hlog
  | after hcalls husable =>
    refine .after hcalls fun nowMs skew htime => ?_
    rw [htokens]
    exact husable nowMs skew htime

theorem Rotated.calledOnce (h : Rotated tokens times slot log) : CalledOnce log := by
  cases h with
  | before _ hlog => exact .inl hlog
  | after hcalls _ => exact .inr hcalls

/-- A call that finds unusable tokens is the first one. -/
theorem Rotated.unusable {nowMs skew : Nat} (htime : times nowMs skew)
    (h : Rotated tokens times slot log) (husable : slot.tokens.isAccessUsable nowMs skew = false) :
    slot.tokens = tokens ∧ ∀ entry ∈ log, Untouched entry := by
  cases h with
  | before htokens hlog => exact ⟨htokens, hlog⟩
  | after _ h =>
    rw [h nowMs skew htime] at husable
    exact nomatch husable

theorem rotated_kept {nowMs skew : Nat} (htime : times nowMs skew)
    (hexpired : ∀ nowMs skew, times nowMs skew → tokens.isAccessUsable nowMs skew = false)
    (persistence : Bool) :
    Kept (Succeeds times) nowMs skew persistence (fun _ => CalledOnce) (Rotated tokens times)
      (fun _ slot log => Rotated tokens times slot log ∧ adapterCalls log = 1) where
  view htokens _ h := h.view htokens
  quiet hquiet h := h.concat hquiet.untouched
  waits h := h.calledOnce
  persisted {s log} h := by
    have hentry : Untouched (answered (.persist s.tokens) (.ok ()) s) ∧
        NoCall (answered (.persist s.tokens) (.ok ()) s) := ⟨trivial, trivial⟩
    have htokens : ({ s with persistencePending := false } : TokenSlot).tokens = s.tokens := rfl
    exact (h.concat hentry).view htokens
  asks h _ husable _ := by
    have hcalls := adapterCalls_untouched (h.unusable htime husable).2
    exact .inr (by rw [adapterCalls_concat, hcalls]; rfl)
  accepts h _ husable _ hallows := by
    have hcalls := adapterCalls_untouched (h.unusable htime husable).2
    obtain ⟨_, ⟨⟩, hrefresh⟩ := hallows
    exact .after (by rw [adapterCalls_concat, adapterCalls_concat, hcalls]; rfl) hrefresh
  rejects _ hallows := by
    obtain ⟨_, hok, _⟩ := hallows
    exact nomatch hok
  ready {s log} h _ husable := by
    refine ⟨h, ?_⟩
    cases h with
    | before htokens _ =>
      rw [htokens, hexpired nowMs skew htime] at husable
      exact nomatch husable
    | after hcalls _ => exact hcalls
  renewed {s log} h _ hrenewed := by
    refine ⟨h, ?_⟩
    cases h with
    | before _ hlog =>
      obtain ⟨_, _, _, _, hmem⟩ := hrenewed
      exact (hlog _ hmem).elim
    | after hcalls _ => exact hcalls

/-- Calls to prepare the tokens, at the times `times`. -/
def SlotCall.PreparesAt (times : Nat → Nat → Prop) : SlotCall → Prop
  | .prepare nowMs skew => times nowMs skew
  | .prepareAndPersist nowMs skew => times nowMs skew
  | .invalidate _ _ => False

theorem safe_rotated (hexpired : ∀ nowMs skew, times nowMs skew → tokens.isAccessUsable nowMs skew = false)
    (call : SlotCall) (hcall : call.PreparesAt times) (slot : TokenSlot) (log : Log)
    (h : Rotated tokens times slot log) :
    Safe (Succeeds times) Newer (fun _ => CalledOnce)
      (fun a s₀ s log => Newer s₀ s ∧ Rotated tokens times s (log ++ [.returned call a s]))
      call.program slot slot log := by
  have hreturns : ∀ (nowMs skew : Nat) (persistence : Bool), times nowMs skew →
      ∀ next : Except TokenAuthorityError PreparedToken → Task TokenSlot Request Request.Answer SlotResult,
      (∀ token, next (.ok token) = return .prepared token) → (∀ error, next (.error error) = return .failed error) →
      Safe (Succeeds times) Newer (fun _ => CalledOnce)
        (fun a s₀ s log => Newer s₀ s ∧ Rotated tokens times s (log ++ [.returned call a s]))
        ((prepareInner nowMs skew persistence).run >>= next) slot slot log := by
    intro nowMs skew persistence htime next hok herror
    refine (safe_bind _ _).mpr ?_
    have htriple := triple_prepareInner (rotated_kept htime hexpired persistence)
    refine (htriple slot slot log le_rfl h).mono fun a s₀ s log hpost => ?_
    cases a with
    | ok token =>
      rw [hok]
      refine ⟨hpost.1, ?_⟩
      obtain ⟨-, hrotated, hcalls⟩ := hpost
      cases hrotated with
      | before _ hlog =>
        rw [adapterCalls_untouched hlog] at hcalls
        cases hcalls
      | after _ husable => exact .after (by rw [adapterCalls_concat, hcalls]; rfl) husable
    | error error =>
      rw [herror]
      exact ⟨hpost.1, hpost.2.concat ⟨trivial, trivial⟩⟩
  cases call with
  | prepare nowMs skew => exact hreturns nowMs skew false hcall _ (fun _ => rfl) fun _ => rfl
  | prepareAndPersist nowMs skew => exact hreturns nowMs skew true hcall _ (fun _ => rfl) fun _ => rfl
  | invalidate _ _ => exact hcall.elim

end

theorem advance_slot {β : Type} (call : SlotCall) (f : TokenSlot → SlotTask β)
    (k : Except TokenAuthorityError β → Task TokenSlot Request Request.Answer SlotResult)
    (slot : TokenSlot) (log : Log) :
    advance call ((SlotTask.slot >>= f).run >>= k) slot log =
      advance call ((f slot).run >>= k) slot log := rfl

variable {tokens : TokenSet}

variable {authState : AccountAuthState}

/-- On a fresh slot with expired tokens and no login requirement the first call goes straight to the
adapter. -/
theorem first_call_refreshes {token : String}
    (htoken : tokens.refreshToken = some token)
    (hauth : ∀ reason, authState ≠ .requiresReauth reason) {nowMs skew : Nat}
    (hexpired : tokens.isAccessUsable nowMs skew = false) (call : SlotCall) (persistence : Bool)
    (k : Except TokenAuthorityError PreparedToken → Task TokenSlot Request Request.Answer SlotResult) :
    (advance call ((prepareInner nowMs skew persistence).run >>= k)
      (TokenSlot.register tokens authState) []).log =
      [asked (.refresh token nowMs)
        { TokenSlot.register tokens authState with authState := .refreshing }] := by
  have hselect : ∀ slot : TokenSlot, slot.tokens = tokens →
      (∀ reason, slot.authState ≠ .requiresReauth reason) →
      (advance call ((selectTokens nowMs skew persistence).run >>= k) slot []).log =
        [asked (.refresh token nowMs) { slot with authState := .refreshing }] := by
    intro slot htokens hslot
    subst htokens
    rw [selectTokens, advance_slot]
    split
    case h_1 reason hreason => exact absurd hreason (hslot reason)
    case h_2 =>
      rw [if_neg (by rw [hexpired]; exact Bool.false_ne_true), htoken]
      rfl
  cases authState with
  | requiresReauth reason => exact absurd rfl (hauth reason)
  | _ => exact hselect _ rfl hauth

/-- Concurrent calls to prepare the tokens, with a successful adapter. None of them is abandoned; the
persistence adapter may fail. -/
def RotationEvent (times : Nat → Nat → Prop) (event : SlotEvent) : Prop :=
  event.Ok (SlotCall.PreparesAt times) (Succeeds times) False

variable {times : Nat → Nat → Prop}

theorem run_calledOnce (hexpired : ∀ nowMs skew, times nowMs skew → tokens.isAccessUsable nowMs skew = false)
    (authState : AccountAuthState)
    (hevents : ∀ event ∈ events, RotationEvent times event) :
    CalledOnce (slotRun tokens authState events).log := by
  have hregister : Rotated tokens times (TokenSlot.register tokens authState) [] :=
    .before rfl fun _ hmem => nomatch hmem
  have hstart : (({ shared := TokenSlot.register tokens authState } : SlotConfig)).Fine
      (Succeeds times) Newer (Rotated tokens times) (fun _ => CalledOnce) := hregister
  have hfine : (slotRun tokens authState events).Fine (Succeeds times) Newer
      (Rotated tokens times) (fun _ => CalledOnce) :=
    (run_safe newer_refl newer_trans (safe_rotated hexpired) (fun h => h.elim) hstart events
      hevents).1
  unfold Config.Fine at hfine
  split at hfine
  case h_1 => exact hfine.calledOnce
  case h_2 => exact hfine.1

theorem CalledOnce.le (h : CalledOnce log) : adapterCalls log ≤ 1 := by
  rcases h with hlog | hcalls
  · rw [adapterCalls_untouched hlog]
    exact Nat.zero_le 1
  · exact hcalls.le

theorem CalledOnce.eq_of_returned (h : CalledOnce log) {call : SlotCall}
    {token : PreparedToken} {slot : TokenSlot}
    (hmem : .returned call (.prepared token) slot ∈ log) : adapterCalls log = 1 := by
  rcases h with hlog | hcalls
  · exact (hlog _ hmem).elim
  · exact hcalls

/-- The first event that is a call makes the adapter call; the log keeps it. -/
theorem one_le_adapterCalls {token : String}
    (htoken : tokens.refreshToken = some token)
    (hexpired : ∀ nowMs skew, times nowMs skew → tokens.isAccessUsable nowMs skew = false)
    (hauth : ∀ reason, authState ≠ .requiresReauth reason)
    (hevents : ∀ event ∈ events, RotationEvent times event)
    {call : SlotCall} (hcall : .acquire call ∈ events) :
    1 ≤ adapterCalls (slotRun tokens authState events).log := by
  induction events with
  | nil => exact nomatch hcall
  | cons event events ih =>
    rw [List.forall_mem_cons] at hevents
    cases event with
    | acquire first =>
      have hlog : ∃ slot nowMs, (slotStep { shared := TokenSlot.register tokens authState }
          (.acquire first)).log = [asked (.refresh token nowMs) slot] := by
        cases first with
        | prepare nowMs skew =>
          exact ⟨_, _, first_call_refreshes htoken hauth (hexpired nowMs skew hevents.1) _ _ _⟩
        | prepareAndPersist nowMs skew =>
          exact ⟨_, _, first_call_refreshes htoken hauth (hexpired nowMs skew hevents.1) _ _ _⟩
        | invalidate _ _ => exact hevents.1.elim
      obtain ⟨slot, nowMs, hlog⟩ := hlog
      have hlead := log_prefix_run SlotCall.program
        (slotStep { shared := TokenSlot.register tokens authState } (.acquire first)) events
      rw [hlog] at hlead
      exact (show 1 ≤ adapterCalls [asked (.refresh token nowMs) slot] from le_rfl).trans
        (List.Sublist.countP_le hlead.sublist)
    | respond answer =>
      exact ih hevents.2 (by simpa using hcall)
    | abandon => exact hevents.1.elim

/-- Reports of one generation change the slot at most once: the event of a report that gets the slot
moves it from that generation to the next and expires the access token, or it returns `false` and
changes nothing; and after one that changed the slot none does. Concurrent calls on expired
tokens that can be refreshed call a successful adapter at most once, exactly once as soon as one of
them returned tokens, and exactly once as soon as one of them has the slot if there is no login
requirement. -/
theorem single_rotation :
    (∀ (slot : TokenSlot) (generation : Nat) (events : List SlotEvent),
      generation < 2 ^ 64 - 1 →
      (∀ n nowMs, events[n]? = some (.acquire (.invalidate (some generation) nowMs)) →
        ReportStep generation nowMs (run slotStep { shared := slot } (events.take n))
          (run slotStep { shared := slot } (events.take (n + 1)))) ∧
      ∀ m n nowMs nowMs', m < n →
        events[m]? = some (.acquire (.invalidate (some generation) nowMs)) →
        events[n]? = some (.acquire (.invalidate (some generation) nowMs')) →
        (run slotStep { shared := slot } (events.take (m + 1))).shared ≠
          (run slotStep { shared := slot } (events.take m)).shared →
        (run slotStep { shared := slot } (events.take (n + 1))).shared =
          (run slotStep { shared := slot } (events.take n)).shared) ∧
    ∀ (tokens : TokenSet) (authState : AccountAuthState) (times : Nat → Nat → Prop)
      (events : List SlotEvent), tokens.refreshToken.isSome →
      (∀ nowMs skew, times nowMs skew → tokens.isAccessUsable nowMs skew = false) →
      (∀ event ∈ events, RotationEvent times event) →
      adapterCalls (slotRun tokens authState events).log ≤ 1 ∧
      (∀ call token slot,
        .returned call (.prepared token) slot ∈ (slotRun tokens authState events).log →
          adapterCalls (slotRun tokens authState events).log = 1) ∧
      ((∀ reason, authState ≠ .requiresReauth reason) → ∀ call, .acquire call ∈ events →
        adapterCalls (slotRun tokens authState events).log = 1) := by
  constructor
  · intro slot generation events hgeneration
    refine ⟨fun n nowMs hn => ?_, fun m n nowMs nowMs' hlt hm hn hchanged =>
      later_report_ignored slot hgeneration events hlt hm hn hchanged⟩
    rw [run_take_succ hn]
    exact reportStep _ hgeneration nowMs
  · intro tokens authState times events hrefreshable hexpired hevents
    obtain ⟨token, htoken⟩ := Option.isSome_iff_exists.mp hrefreshable
    have honce := run_calledOnce hexpired authState hevents
    refine ⟨honce.le, fun call token slot hmem => honce.eq_of_returned hmem, ?_⟩
    intro hauth call hcall
    exact honce.le.antisymm (one_le_adapterCalls htoken hexpired hauth hevents hcall)

/-- Two reports of the generation of the slot; the second one comes after the first was persisted. -/
def sampleReports : List SlotEvent :=
  [.acquire (.invalidate (some 0) 7), .respond (sampleAnswer true),
    .acquire (.invalidate (some 0) 8)]

/-- Two calls at times 10 and 20; the second one comes after the first returned. -/
def samplePrepares : List SlotEvent :=
  [.acquire (.prepare 10 0), .respond (sampleAnswer true), .acquire (.prepareAndPersist 20 0)]

def sampleTimes (nowMs skew : Nat) : Prop := (nowMs = 10 ∨ nowMs = 20) ∧ skew = 0

theorem samplePrepares_rotate : ∀ event ∈ samplePrepares, RotationEvent sampleTimes event := by
  have hanswer : ∀ q, Succeeds sampleTimes q (sampleAnswer true q) := by
    intro q
    cases q with
    | persist _ => trivial
    | persistAuthState _ => trivial
    | refresh _ _ =>
      refine ⟨sampleRefresh, rfl, ?_⟩
      rintro nowMs skew ⟨rfl | rfl, rfl⟩ <;> decide
  simp [samplePrepares, RotationEvent, Event.Ok, SlotCall.PreparesAt, hanswer, sampleTimes]

theorem single_rotation_sample :
    ReportStep 0 8
      (run slotStep { shared := TokenSlot.register sampleTokens .active } (sampleReports.take 2))
      (run slotStep { shared := TokenSlot.register sampleTokens .active } (sampleReports.take 3)) ∧
    (run slotStep { shared := TokenSlot.register sampleTokens .active } (sampleReports.take 3)).shared =
      (run slotStep { shared := TokenSlot.register sampleTokens .active }
        (sampleReports.take 2)).shared ∧
    adapterCalls (slotRun sampleTokens .active samplePrepares).log = 1 := by
  have hreports := single_rotation.1 (TokenSlot.register sampleTokens .active) 0 sampleReports
    (by decide)
  refine ⟨hreports.1 2 8 rfl, hreports.2 0 2 7 8 (by decide) rfl rfl ?_, ?_⟩
  · intro heq
    have hgeneration := congrArg (fun slot : TokenSlot => slot.tokens.generation) heq
    exact absurd hgeneration (by decide)
  · refine (single_rotation.2 sampleTokens .active sampleTimes samplePrepares rfl ?_
      samplePrepares_rotate).2.2 nofun (.prepare 10 0) List.mem_cons_self
    rintro nowMs skew ⟨rfl | rfl, rfl⟩ <;> decide

end Zenith.Accounts
