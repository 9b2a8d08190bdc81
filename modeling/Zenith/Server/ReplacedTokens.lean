import Zenith.Server.TokenSlots

/-!
# Tokens of replaced imports

An import leaves the slot of its account as it is. Until a rebuild has registered the new credential, a call refreshes
the replaced tokens, and `persist` writes them where the record points by then: over the imported credential. A probe
is such a call: `register_if_absent` finds the slot and changes nothing. So may be a request that waits for the provider
when the import is committed, and a rebuild that has loaded the replaced credential puts it back.
-/

namespace Zenith.Server

open Std Zenith.Accounts Zenith.LockedTasks Zenith.Runs Zenith.Tables

namespace TokenRebuild

def secretRef : TokenRebuild → Option String
  | found secretRef _ | loaded secretRef .. => some secretRef
  | finished => none

/-- What was loaded under the reference goes back to its import. -/
def OriginIs (current : String) : TokenRebuild → Prop
  | loaded secretRef origin _ _ => secretRef = current → origin = current
  | _ => True

end TokenRebuild

namespace TokenSystem

/-- The tokens under the account's reference go back to the import that the reference was made for. -/
def KeepsImported (s : TokenSystem) : Prop := s.origins[s.secretRef]? = some s.secretRef

/-- A call that persists tokens under the account's reference finds the slot registered from there. -/
def PersistsRegistered (s : TokenSystem) : TokenStep → Prop
  | .answer saves _ =>
    match s.slot.holder with
    | some ⟨_, .persist _, _⟩ => saves = true → s.located = some s.secretRef → s.slotRef = s.secretRef
    | _ => True
  | _ => True

/-- The reference is in the record, in the slot, or with a call or a rebuild under way. -/
def Uses (s : TokenSystem) (secretRef : String) : Prop :=
  s.secretRef = secretRef ∨ s.slotRef = secretRef ∨ s.located = some secretRef ∨ ∃ task ∈ s.rebuilds, task.secretRef = some secretRef

structure OriginsInOrder (s : TokenSystem) : Prop where
  kept : s.KeepsImported
  slot : s.slotRef = s.secretRef → s.slotOrigin = s.secretRef
  rebuilds : ∀ task ∈ s.rebuilds, task.OriginIs s.secretRef
  known : ∀ secretRef, s.Uses secretRef → s.origins[secretRef]?.isSome = true
  fresh : ∀ session ∈ s.sessions, s.origins[session.1]? = some session.1 ∧ ¬s.Uses session.1

section
variable {s s' : TokenSystem}

/-- Calls on the slot change none of it, but for the reference that `persist` has found. -/
theorem OriginsInOrder.congr (h : s.OriginsInOrder) (hsecretRef : s'.secretRef = s.secretRef) (hslotRef : s'.slotRef = s.slotRef)
    (hslotOrigin : s'.slotOrigin = s.slotOrigin) (horigins : s'.origins = s.origins) (hrebuilds : s'.rebuilds = s.rebuilds)
    (hsessions : s'.sessions = s.sessions) (hlocated : ∀ secretRef, s'.located = some secretRef → s.Uses secretRef) :
    s'.OriginsInOrder := by
  have huses : ∀ secretRef, s'.Uses secretRef → s.Uses secretRef := by
    rintro secretRef (heq | heq | heq | hmem)
    · exact .inl (hsecretRef ▸ heq)
    · exact .inr (.inl (hslotRef ▸ heq))
    · exact hlocated secretRef heq
    · exact .inr (.inr (.inr (hrebuilds ▸ hmem)))
  refine ⟨?_, ?_, ?_, fun secretRef hmem => horigins ▸ h.known secretRef (huses secretRef hmem), fun session hmem => ?_⟩
  · rw [KeepsImported, horigins, hsecretRef]
    exact h.kept
  · rw [hsecretRef, hslotRef, hslotOrigin]
    exact h.slot
  · rw [hrebuilds, hsecretRef]
    exact h.rebuilds
  · obtain ⟨horigin, hunused⟩ := h.fresh session (hsessions ▸ hmem)
    exact ⟨horigins ▸ horigin, fun hmem => hunused (huses _ hmem)⟩

/-- Tokens are written under the reference that was found. -/
theorem OriginsInOrder.write (h : s.OriginsInOrder) {secretRef : String} (hlocated : s.located = some secretRef)
    (hok : secretRef = s.secretRef → s.slotRef = s.secretRef) :
    ({ s with origins := s.origins.insert secretRef s.slotOrigin } : TokenSystem).OriginsInOrder := by
  have horigins : ∀ other : String, (s.origins.insert secretRef s.slotOrigin)[other]? =
      if secretRef = other then some s.slotOrigin else s.origins[other]? := fun other => getElem?_insert_ite ..
  refine ⟨(horigins _).trans ?_, h.slot, h.rebuilds, fun other huses => ?_, fun session hmem => ?_⟩
  · split
    case isTrue heq => exact congrArg some (h.slot (hok heq))
    case isFalse => exact h.kept
  · show (s.origins.insert secretRef s.slotOrigin)[other]?.isSome = true
    rw [horigins]
    split
    case isTrue => rfl
    case isFalse => exact h.known other huses
  · obtain ⟨horigin, hunused⟩ := h.fresh session hmem
    refine ⟨(horigins _).trans ((if_neg fun heq => hunused ?_).trans horigin), hunused⟩
    exact .inr (.inr (.inl (heq ▸ hlocated)))

/-- A rebuild goes on to a task that concerns the same reference or none. -/
theorem OriginsInOrder.become (h : s.OriginsInOrder) (i : Nat) (task : TokenRebuild) (horigin : task.OriginIs s.secretRef)
    (hsame : ∀ secretRef, task.secretRef = some secretRef → (s.rebuildTask i).secretRef = some secretRef) :
    ({ s with rebuilds := s.rebuilds.set i task } : TokenSystem).OriginsInOrder := by
  have huses : ∀ secretRef, ({ s with rebuilds := s.rebuilds.set i task } : TokenSystem).Uses secretRef → s.Uses secretRef := by
    rintro secretRef (heq | heq | heq | ⟨other, hmem, heq⟩)
    · exact .inl heq
    · exact .inr (.inl heq)
    · exact .inr (.inr (.inl heq))
    · rcases List.mem_or_eq_of_mem_set hmem with hmem | rfl
      · exact .inr (.inr (.inr ⟨other, hmem, heq⟩))
      · have hbefore := hsame secretRef heq
        unfold rebuildTask at hbefore
        cases hget : s.rebuilds[i]? with
        | none =>
          rw [hget] at hbefore
          exact nomatch hbefore
        | some found =>
          rw [hget] at hbefore
          exact .inr (.inr (.inr ⟨found, List.mem_of_getElem? hget, hbefore⟩))
  refine ⟨h.kept, h.slot, fun other hmem => ?_, fun secretRef hmem => h.known secretRef (huses secretRef hmem), fun session hmem => ?_⟩
  · exact (List.mem_or_eq_of_mem_set hmem).elim (h.rebuilds other) fun heq => heq ▸ horigin
  · exact (h.fresh session hmem).imp_right fun hunused hmem => hunused (huses _ hmem)

theorem rebuildTask_mem {i : Nat} {task : TokenRebuild} (h : s.rebuildTask i = task) : task ∈ s.rebuilds ∨ task = .finished := by
  unfold rebuildTask at h
  cases hget : s.rebuilds[i]? with
  | none => exact .inr (h.symm.trans (by rw [hget]; rfl))
  | some found =>
    rw [hget] at h
    exact .inl (h ▸ List.mem_of_getElem? hget)

/-- A rebuild gets the slot. -/
theorem OriginsInOrder.register (h : s.OriginsInOrder) {i : Nat} {secretRef origin : String} {tokens : TokenSet} {authState : AccountAuthState}
    (htask : s.rebuildTask i = .loaded secretRef origin tokens authState) :
    ({ s with slotRef := secretRef, slotOrigin := origin } : TokenSystem).OriginsInOrder := by
  have hmem := (rebuildTask_mem htask).resolve_right fun heq => TokenRebuild.noConfusion heq
  have huses : ∀ other, ({ s with slotRef := secretRef, slotOrigin := origin } : TokenSystem).Uses other → s.Uses other := by
    rintro other (heq | heq | heq | hmem')
    · exact .inl heq
    · exact .inr (.inr (.inr ⟨_, hmem, congrArg some heq⟩))
    · exact .inr (.inr (.inl heq))
    · exact .inr (.inr (.inr hmem'))
  exact ⟨h.kept, h.rebuilds _ hmem, h.rebuilds, fun other hused => h.known other (huses other hused),
    fun session hsession => (h.fresh session hsession).imp_right fun hunused hused => hunused (huses _ hused)⟩

theorem origins_nextOfRebuild (h : s.OriginsInOrder) (i : Nat) : (s.nextOfRebuild i).OriginsInOrder := by
  unfold TokenSystem.nextOfRebuild
  cases htask : s.rebuildTask i with
  | found secretRef authState =>
    dsimp only
    split
    · exact h.become i .finished trivial fun _ heq => nomatch heq
    · refine h.become i (.loaded _ _ _ _) (fun heq => ?_) fun other heq => by rw [htask]; exact heq
      -- What is loaded under the account's reference goes back to its import.
      rw [heq, show s.origins[s.secretRef]? = some s.secretRef from h.kept]
      rfl
  | loaded secretRef origin tokens authState =>
    dsimp only
    cases s.slot.holder with
    | some holder => exact h
    | none =>
      have hregistered := (h.register htask).become i .finished trivial fun _ heq => nomatch heq
      exact hregistered.congr rfl rfl rfl rfl rfl rfl fun _ heq => .inr (.inr (.inl heq))
  | finished => exact h

theorem origins_answer (h : s.OriginsInOrder) (saves : Bool) (refreshed : Except TokenRefreshFailure TokenRefresh)
    (hok : s.PersistsRegistered (.answer saves refreshed)) : (s.answer saves refreshed).OriginsInOrder := by
  have hrespond : ∀ {s' : TokenSystem} (persisted : Except TokenPersistenceFailure Unit), s'.OriginsInOrder →
      (s'.respond persisted refreshed).OriginsInOrder :=
    fun _ h' => h'.congr rfl rfl rfl rfl rfl rfl fun _ heq => nomatch heq
  unfold PersistsRegistered at hok
  unfold TokenSystem.answer
  split
  case h_1 => exact h
  case h_2 call tokens resume hholder =>
    rw [hholder] at hok
    unfold TokenSystem.persist
    cases hlocated : s.located with
    | none => exact h.congr rfl rfl rfl rfl rfl rfl fun _ heq => .inl (Option.some.inj heq)
    | some secretRef =>
      dsimp only at hok ⊢
      split
      case h_1 => exact hrespond _ h
      case h_2 credential _ =>
        cases saves with
        | false => exact hrespond _ h
        | true =>
          have hwritten := h.write hlocated fun heq => hok rfl (heq ▸ hlocated)
          exact hrespond _ (hwritten.congr rfl rfl rfl rfl rfl rfl fun _ heq => .inr (.inr (.inl (hlocated.trans heq))))
  case h_3 call authState resume hholder =>
    split
    case isTrue =>
      have hrejected : { s with authState }.OriginsInOrder := h.congr rfl rfl rfl rfl rfl rfl fun _ heq => .inr (.inr (.inl heq))
      exact hrespond _ hrejected
    case isFalse => exact hrespond _ h
  case h_4 => exact hrespond _ h

/-- A preview stores a credential under a reference that was never in use. -/
theorem OriginsInOrder.preview (h : s.OriginsInOrder) {secretRef : String} (authState : AccountAuthState) (hunused : s.origins[secretRef]? = none) :
    ({ s with
      sessions := (secretRef, authState) :: s.sessions
      origins := s.origins.insert secretRef secretRef } : TokenSystem).OriginsInOrder := by
  have hkept : ∀ {other origin : String}, s.origins[other]? = some origin →
      (s.origins.insert secretRef secretRef)[other]? = some origin := getElem?_insert_new hunused
  refine ⟨hkept h.kept, h.slot, h.rebuilds, fun other huses => ?_, fun session hmem => ?_⟩
  · obtain ⟨origin, horigin⟩ := Option.isSome_iff_exists.mp (h.known other huses)
    exact Option.isSome_iff_exists.mpr ⟨origin, hkept horigin⟩
  · rcases List.mem_cons.mp hmem with rfl | hmem
    · refine ⟨(getElem?_insert_ite ..).trans (if_pos rfl), fun huses => ?_⟩
      exact absurd (h.known secretRef huses) (by rw [hunused]; exact Bool.false_ne_true)
    · exact (h.fresh session hmem).imp_left hkept

/-- A confirmation points the record at the reference of its session. -/
theorem OriginsInOrder.commit (h : s.OriginsInOrder) {session : String × AccountAuthState} (hmem : session ∈ s.sessions) :
    ({ s with
      secretRef := session.1
      sessions := s.sessions.filter (·.1 ≠ session.1) } : TokenSystem).OriginsInOrder := by
  obtain ⟨horigin, hunused⟩ := h.fresh session hmem
  have huses : ∀ other, ({ s with secretRef := session.1, sessions := s.sessions.filter (·.1 ≠ session.1) } : TokenSystem).Uses other →
      session.1 = other ∨ s.Uses other := by
    rintro other (heq | heq | heq | hmem')
    · exact .inl heq
    · exact .inr (.inr (.inl heq))
    · exact .inr (.inr (.inr (.inl heq)))
    · exact .inr (.inr (.inr (.inr hmem')))
  refine ⟨horigin, fun heq => (hunused (.inr (.inl heq))).elim, fun task htask => ?_, fun other hused => ?_, fun other hother => ?_⟩
  · -- No rebuild under way has seen the reference.
    cases task with
    | loaded secretRef origin tokens authState =>
      exact fun heq => (hunused (.inr (.inr (.inr ⟨_, htask, congrArg some heq⟩)))).elim
    | found secretRef authState => trivial
    | finished => trivial
  · rcases huses other hused with rfl | hused
    · exact horigin ▸ rfl
    · exact h.known other hused
  · obtain ⟨hmem', hne⟩ := List.mem_filter.mp hother
    obtain ⟨horigin', hunused'⟩ := h.fresh other hmem'
    exact ⟨horigin', fun hused => (huses _ hused).elim (fun heq => of_decide_eq_true hne heq.symm) hunused'⟩

theorem origins_step (h : s.OriginsInOrder) (op : TokenStep) (hok : s.PersistsRegistered op) : (s.step op).OriginsInOrder := by
  have hcall : ∀ {slot : SlotConfig}, ({ s with slot } : TokenSystem).OriginsInOrder :=
    h.congr rfl rfl rfl rfl rfl rfl fun _ heq => .inr (.inr (.inl heq))
  cases op with
  | prepare nowMs refreshSkewMs => exact hcall
  | invalidate failedGeneration nowMs => exact hcall
  | answer saves refreshed => exact origins_answer h saves refreshed hok
  | abandon => exact h.congr rfl rfl rfl rfl rfl rfl fun _ heq => nomatch heq
  | rebuild =>
    have huses : ∀ other, ({ s with rebuilds := s.rebuilds ++ [.found s.secretRef s.authState] } : TokenSystem).Uses other → s.Uses other := by
      rintro other (heq | heq | heq | ⟨task, hmem, heq⟩)
      · exact .inl heq
      · exact .inr (.inl heq)
      · exact .inr (.inr (.inl heq))
      · rcases List.mem_append.mp hmem with hmem | hmem
        · exact .inr (.inr (.inr ⟨task, hmem, heq⟩))
        · obtain rfl := List.mem_singleton.mp hmem
          exact .inl (Option.some.inj heq)
    refine ⟨h.kept, h.slot, fun task hmem => ?_, fun other hused => h.known other (huses other hused),
      fun session hsession => (h.fresh session hsession).imp_right fun hunused hused => hunused (huses _ hused)⟩
    rcases List.mem_append.mp hmem with hmem | hmem
    · exact h.rebuilds task hmem
    · obtain rfl := List.mem_singleton.mp hmem
      trivial
  | next i => exact origins_nextOfRebuild h i
  | preview secretRef credential authState =>
    unfold TokenSystem.step
    dsimp only
    split
    case isTrue => exact h
    case isFalse hnew =>
      have hunused : s.origins[secretRef]? = none := by
        cases horigin : s.origins[secretRef]? with
        | none => rfl
        | some origin => exact absurd (by rw [horigin]; exact Bool.or_true _) hnew
      exact (h.preview authState hunused).congr rfl rfl rfl rfl rfl rfl fun _ heq => .inr (.inr (.inl heq))
  | commit secretRef =>
    unfold TokenSystem.step
    dsimp only
    split
    case h_1 session hreplaced hfind =>
      obtain rfl : session.1 = secretRef := of_decide_eq_true (List.find?_some (p := fun x : String × AccountAuthState => decide (x.1 = secretRef)) hfind)
      exact (h.commit (List.mem_of_find?_eq_some hfind)).congr rfl rfl rfl rfl rfl rfl fun _ heq => .inr (.inr (.inl heq))
    case h_2 => exact h
  | delete =>
    unfold TokenSystem.step
    dsimp only
    split
    case h_1 => exact h
    case h_2 => exact h.congr rfl rfl rfl rfl rfl rfl fun _ heq => .inr (.inr (.inl heq))

end

end TokenSystem

/-- In every state the tokens of the account's credential go back to its last import, as long as every call that persists
tokens under the account's reference finds the slot registered from there. -/
theorem imports_keep_credentials (secretRef : String) (credential : StoredCredential) (tokens : TokenSet) (authState : AccountAuthState)
    (ops : List TokenStep)
    (hok : StepsMeet TokenSystem.step TokenSystem.PersistsRegistered (.start secretRef credential tokens authState) ops) :
    ∀ before after, ops = before ++ after →
      (run TokenSystem.step (.start secretRef credential tokens authState) before).KeepsImported := by
  rintro before after rfl
  have horigin : ((∅ : Table String String).insert secretRef secretRef)[secretRef]? = some secretRef :=
    (getElem?_insert_ite ..).trans (if_pos rfl)
  have hstart : (TokenSystem.start secretRef credential tokens authState).OriginsInOrder := by
    refine ⟨horigin, fun _ => rfl, fun task hmem => (List.not_mem_nil hmem).elim, ?_, fun session hmem => (List.not_mem_nil hmem).elim⟩
    rintro other (rfl | rfl | heq | ⟨task, hmem, -⟩)
    · exact horigin ▸ rfl
    · exact horigin ▸ rfl
    · exact nomatch heq
    · exact (List.not_mem_nil hmem).elim
  exact (run_invariant (I := TokenSystem.OriginsInOrder) (fun s op h hok => TokenSystem.origins_step h op hok) hstart
    (StepsMeet.append.mp hok).1).kept

/-- The account is imported again, with other tokens. -/
def imported : List TokenStep :=
  [.preview "secret-2" { sampleStoredCredential with accessToken := "imported", refreshToken := some "imported refresh" } .active, .commit "secret-2"]

/-- The import's rebuild registers the new credential, and a call refreshes it. -/
def importedThenRefreshed : List TokenStep := imported ++ [.rebuild, .next 0, .next 0] ++ refreshed ++ [.delete]

theorem imports_keep_credentials_sample : (run TokenSystem.step sampleSystem importedThenRefreshed).KeepsImported :=
  imports_keep_credentials "secret-1" sampleStoredCredential sampleTokens .active importedThenRefreshed
    ⟨trivial, trivial, trivial, trivial, trivial, trivial, trivial, fun _ _ => rfl, fun _ _ => rfl, trivial, trivial, trivial⟩
    importedThenRefreshed [] (List.append_nil _).symm

/-- The probe comes before any rebuild. -/
def probedFirst : List TokenStep := imported ++ refreshed ++ [.delete]

/-- A call waits for the provider while the import is committed and its rebuild loads the credential. -/
def importedMeanwhile : List TokenStep :=
  .prepare 10 0 :: imported ++ [.rebuild, .next 0] ++ List.replicate 4 (.answer true (.ok sampleRefresh)) ++ [.next 0, .delete]

/-- A rebuild that has loaded the replaced credential gets the slot after the import's rebuild. -/
def registeredLate : List TokenStep :=
  [.rebuild, .next 0] ++ imported ++ [.rebuild, .next 1, .next 1, .next 0] ++ refreshed ++ [.delete]

/-- Each time the confirmation has returned, and the vault has the tokens that came of the replaced refresh token. -/
theorem replaced_tokens_come_back : [probedFirst, importedMeanwhile, registeredLate].Forall fun ops =>
    (run TokenSystem.step sampleSystem ops).replaced = none ∧ ¬(run TokenSystem.step sampleSystem ops).KeepsImported ∧
      ((run TokenSystem.step sampleSystem ops).vault["secret-2"]?).map (·.refreshToken) = some (some "refresh 2") := by
  refine List.forall_iff_forall_mem.mpr ?_
  unfold TokenSystem.KeepsImported
  decide +kernel

end Zenith.Server
