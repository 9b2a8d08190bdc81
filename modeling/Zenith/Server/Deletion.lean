import Zenith.Server.Rollback

/-!
# Deleting accounts and sources

`delete_account` and `delete_source` with `rebuild_runtime_or_rollback`. They delete from the store and the vault, and
when the gateway cannot be rebuilt without the member they put its record and its secret back and rebuild it again.

The transaction of `Store::delete_account` also moves the usage of the account to the tombstones and drops its rollups
and bindings, which nothing brings back; and there is no way back from a vault that fails. `failed_deletion_iff` says
when a failed deletion leaves no trace. The wake tasks, which are trimmed after all this, and the tokens in memory, which
a rebuild registers again, are left out.
-/

namespace Zenith.Server

open Std Zenith.Faults Zenith.Publishing Zenith.Records Zenith.Rollups Zenith.Rows Zenith.Runtime Zenith.Scheduler
  Zenith.Tables Zenith.Text

/-! ## The store -/

namespace UsageRow

/-- `candidate_kind = 'account' AND candidate_hint = ?` -/
def ofAccount (hint : String) (row : UsageRow) : Bool := row.candidateKind = .account && row.candidateHint = hint

end UsageRow

def rollupOfAccount (hint : String) (row : Row Telemetry.CandidateModel CandidateColumn) : Bool :=
  row.key.kind = .account && row.key.candidateId = hint

namespace ServerState

/-- `Store::delete_account`. `hint` is the digest of an id that usage is filed under. -/
def deleteAccountRows (hint : String → String) (id : String) (s : ServerState) : ServerState :=
  if (s.content.accounts.get? id).isNone then s
  else
    { s with
      content := (Write.deleteAccount id).apply s.content
      usageRequestTombstones := (s.usageEvents.filter (·.ofAccount (hint id))).foldl (fun tombstones row =>
        upsert Prod.fst (fun old new => (old.1, max old.2 new.2)) (row.requestId, row.createdAtMs.val) tombstones)
        s.usageRequestTombstones
      usageEvents := s.usageEvents.filter (!·.ofAccount (hint id))
      usageCandidateRollups := s.usageCandidateRollups.filter (!rollupOfAccount (hint id) ·)
      responseAffinity := s.responseAffinity.filter (·.candidateId ≠ id) }

/-- `remove_candidate` of the running gateway, which also drops the bindings of the candidate. -/
def removeCandidate (id : String) (s : ServerState) : ServerState :=
  match s.running with
  | none => s
  | some _ =>
    { s with
      running := (Write.removeCandidate id).touch s.running
      responseAffinity := s.responseAffinity.filter (·.candidateId ≠ id) }

end ServerState

/-! ## The calls -/

section
variable (parts : BuildParts) (hint : String → String)

def restoreAccount (record : ServerAccountRecord) (secret : String) : ServerOp Unit := do
  saveSecret record.secretRef secret
  Op.write (·.write (.saveAccount record)) .store

def restoreSource (record : SourceRecord) (secret : String) : ServerOp Unit := do
  saveSecret record.secretRef secret
  Op.write (·.write (.saveSource record)) .store

def deleteAccount (clock again : RebuildClock) (id : String) : ServerOp Unit := do
  let s ← Op.get
  match s.content.accounts.get? id with
  | none => Op.throw (.refused "account_not_found")
  | some record =>
    match s.content.vault[record.secretRef]? with
    | none => Op.throw (.refused "account_secret_missing")
    | some secret =>
      Op.write (·.deleteAccountRows hint id) .store
      deleteSecret record.secretRef
      Op.modify (·.removeCandidate id)
      rebuildRuntimeOrRollback parts clock again (restoreAccount record secret)

def deleteSource (clock again : RebuildClock) (id : String) : ServerOp Unit := do
  let s ← Op.get
  match s.content.sources.get? id with
  | none => Op.throw (.refused "source_not_found")
  | some record =>
    match s.content.vault[record.secretRef]? with
    | none => Op.throw (.refused "source_secret_missing")
    | some secret =>
      Op.write (·.write (.deleteSource id)) .store
      deleteSecret record.secretRef
      rebuildRuntimeOrRollback parts clock again (restoreSource record secret)

def deleteMember (clock again : RebuildClock) : Member → ServerOp Unit
  | .account id => deleteAccount parts hint clock again id
  | .source id => deleteSource parts clock again id

end

/-! ## What a failed deletion is to leave as it was -/

/-- The write of a deletion that fails. Without a fault, the rebuild may still fail by itself. -/
inductive DeletionFault
  | none
  | storeDelete
  | vaultDelete
  | rebuild
deriving DecidableEq, Repr

def DeletionFault.outcomes : DeletionFault → List Outcome
  | none => []
  | storeDelete => failingAt 0
  | vaultDelete => failingAt 1
  | rebuild => failingAt 2

/-- The error of a step of the deletion, from which all the rest could be restored. -/
def ManagementError.ofStep : ManagementError → Bool
  | store | vault | runtime _ => true
  | _ => false

/-- The record and the secret of the member are the same. -/
def ServerContent.SameMember (content content' : ServerContent) : Member → Prop
  | .account id => content'.accounts.get? id = content.accounts.get? id ∧
      ∀ record ∈ content.accounts.get? id, content'.vault[record.secretRef]? = content.vault[record.secretRef]?
  | .source id => content'.sources.get? id = content.sources.get? id ∧
      ∀ record ∈ content.sources.get? id, content'.vault[record.secretRef]? = content.vault[record.secretRef]?

/-- The candidates of a source are named after it. -/
def Member.ownsBinding : Member → AffinityRow → Bool
  | .account id, row => row.candidateId = id
  | .source id, row => row.candidateId = id || startsWith row.candidateId (id ++ "::")

structure Unchanged (member : Member) (s s' : ServerState) : Prop where
  sameMember : s.content.SameMember s'.content member
  usageEvents : s'.usageEvents = s.usageEvents
  usageCandidateRollups : s'.usageCandidateRollups = s.usageCandidateRollups
  usageRequestTombstones : s'.usageRequestTombstones = s.usageRequestTombstones
  bindings : s'.responseAffinity.filter member.ownsBinding = s.responseAffinity.filter member.ownsBinding
  served : ∀ id, member = .account id → Selectable s.running member → Selectable s'.running member

theorem Unchanged.refl (member : Member) (s : ServerState) : Unchanged member s s where
  sameMember := by cases member <;> exact ⟨rfl, fun _ _ => rfl⟩
  usageEvents := rfl
  usageCandidateRollups := rfl
  usageRequestTombstones := rfl
  bindings := rfl
  served := fun _ _ h => h

section
variable {parts : BuildParts} {hint : String → String} {clock again : RebuildClock} {s : ServerState}

/-! ## What the content serves -/

/-- The gateway that is built from the content serves the account. -/
def ServerContent.Serves (parts : BuildParts) (content : ServerContent) (id : String) : Prop :=
  content.poolAccount parts id ∧ ∃ key, content.HasKey key

def ServerContent.HasCandidate (parts : BuildParts) (content : ServerContent) (candidateId : String) : Prop :=
  (∃ source candidate, content.HasSource source ∧ SourceCandidateOf parts source candidate ∧ candidate.id = candidateId) ∨
    ∃ record, content.HasAccount parts record ∧ record.id.text = candidateId

variable {content : ServerContent}

theorem Built.get?_isSome {r : ServerRuntime} (h : Built parts content r) {candidateId : String} :
    (r.candidates.get? candidateId).isSome = true ↔ content.HasCandidate parts candidateId := by
  constructor
  · intro hsome
    obtain ⟨candidate, hget⟩ := Option.isSome_iff_exists.mp hsome
    obtain ⟨hid, ⟨source, hhas, hof⟩ | ⟨record, hhas, account, hbuilt, rfl⟩⟩ := h.candidate hget
    · exact .inl ⟨source, candidate, hhas, hof, hid⟩
    · obtain rfl := hbuilt.same
      exact .inr ⟨account.record, hhas, hid⟩
  · rintro (⟨source, candidate, hhas, hof, rfl⟩ | ⟨record, hhas, rfl⟩)
    · exact Option.isSome_iff_exists.mpr ⟨candidate, h.source hhas hof⟩
    · obtain ⟨candidate, hget, -⟩ := h.account hhas
      exact Option.isSome_iff_exists.mpr ⟨candidate, hget⟩

variable {installed : Option ServerRuntime} {id : String}

theorem selectable_account_iff {now : String → Nat}
    (h : (rebuild parts now).atOnce content = .ok installed) :
    Selectable installed (.account id) ↔ content.Serves parts id := by
  constructor
  · rintro ⟨r, rfl, candidateId, candidate, hget, howns, key, hkey, hreaches⟩
    have hbuilt := rebuild_ok h
    obtain ⟨hkind, haccountId⟩ := Bool.and_eq_true_iff.mp howns
    obtain ⟨record, hrecord, -⟩ := hbuilt.key.mp ⟨key, hkey, rfl⟩
    refine ⟨?_, record, hrecord⟩
    obtain ⟨-, ⟨source, -, hof⟩ | ⟨record, hhas, hof⟩⟩ := hbuilt.candidate hget
    · obtain ⟨_, _, _, _, _, rfl⟩ := hof
      exact nomatch of_decide_eq_true hkind
    · have hroutable := (hbuilt.reaches_account hkey hhas hof).mp hreaches
      obtain ⟨account, haccount, rfl⟩ := hof
      obtain rfl := haccount.same
      exact ⟨account.record, hhas, hroutable, Option.some.inj (of_decide_eq_true haccountId)⟩
  · rintro ⟨hpool, hkey⟩
    obtain ⟨r, rfl⟩ := Option.isSome_iff_exists.mp ((rebuild_isSome h).mpr ⟨hkey, id, .inr hpool⟩)
    have hbuilt := rebuild_ok h
    obtain ⟨record, hhas, hroutable, rfl⟩ := hpool
    obtain ⟨candidate, hget, hof⟩ := hbuilt.account hhas
    obtain ⟨key, hkey⟩ := List.exists_mem_of_ne_nil _ hbuilt.keys
    refine ⟨r, rfl, _, candidate, hget, ?_, key, hkey, (hbuilt.reaches_account hkey hhas hof).mpr hroutable⟩
    obtain ⟨account, haccount, rfl⟩ := hof
    obtain rfl := haccount.same
    exact Bool.and_eq_true_iff.mpr ⟨rfl, decide_eq_true rfl⟩

/-! ## The restored state -/

/-- What nothing brings back is not there: usage of the account and bindings to it; and it is served only where its
record admits it. The bindings of a source are those that a rebuild takes over. -/
def TraceFree (parts : BuildParts) (hint : String → String) (again : RebuildClock) (s : ServerState) : Member → Prop
  | .account id =>
    (∀ row ∈ s.usageEvents, row.ofAccount (hint id) = false) ∧
      (∀ row ∈ s.usageCandidateRollups, rollupOfAccount (hint id) row = false) ∧
      (∀ row ∈ s.responseAffinity, row.candidateId ≠ id) ∧
      (Selectable s.running (.account id) → s.content.Serves parts id)
  | .source id =>
    s.content.Installs parts → ∀ row ∈ s.responseAffinity, (Member.source id).ownsBinding row = true →
      again.loadedAtMs < row.expiresAtMs ∧ s.content.HasCandidate parts row.candidateId

variable {secret : String}

/-- The record and the secret that were deleted are put back. -/
theorem restored_account {record : ServerAccountRecord}
    (hrecord : content.accounts.get? record.id.text = some record)
    (hsecret : content.vault[record.secretRef]? = some secret) :
    { content with
      accounts := (content.accounts.delete record.id.text).upsert record
      vault := (content.vault.erase record.secretRef).insert record.secretRef secret } = content := by
  rw [RecordTable.upsert_delete hrecord, insert_erase hsecret]

theorem restored_source {record : SourceRecord}
    (hrecord : content.sources.get? record.id.text = some record)
    (hsecret : content.vault[record.secretRef]? = some secret) :
    { content with
      sources := (content.sources.delete record.id.text).upsert record
      vault := (content.vault.erase record.secretRef).insert record.secretRef secret } = content := by
  rw [RecordTable.upsert_delete hrecord, insert_erase hsecret]

/-- What the way back makes of a deleted account: all but its usage and its bindings is as before. -/
structure RestoredAccount (hint : String → String) (id : String) (s restored : ServerState) : Prop where
  content : restored.content = s.content
  usageEvents : restored.usageEvents = s.usageEvents.filter (!·.ofAccount (hint id))
  usageCandidateRollups : restored.usageCandidateRollups = s.usageCandidateRollups.filter (!rollupOfAccount (hint id) ·)
  usageRequestTombstones : (∀ row ∈ s.usageEvents, row.ofAccount (hint id) = false) →
    restored.usageRequestTombstones = s.usageRequestTombstones
  responseAffinity : ∀ row ∈ restored.responseAffinity, row.candidateId ≠ id

variable (hint) in
theorem restoredAccount {record : ServerAccountRecord}
    (hrecord : s.content.accounts.get? record.id.text = some record)
    (hsecret : s.content.vault[record.secretRef]? = some secret) :
    RestoredAccount hint record.id.text s
      (((((s.deleteAccountRows hint record.id.text).write (.deleteSecret record.secretRef)).removeCandidate record.id.text).write
        (.saveSecret record.secretRef secret)).write (.saveAccount record)) := by
  have hcontent := restored_account hrecord hsecret
  unfold ServerState.deleteAccountRows
  rw [hrecord, if_neg nofun]
  have htombstones : (∀ row ∈ s.usageEvents, row.ofAccount (hint record.id.text) = false) →
      (s.usageEvents.filter (·.ofAccount (hint record.id.text))) = [] := by
    intro hevents
    rw [List.filter_eq_nil_iff]
    exact fun row hrow => Bool.not_eq_true _ ▸ hevents row hrow
  have hbinding : ∀ row ∈ s.responseAffinity.filter (·.candidateId ≠ record.id.text), row.candidateId ≠ record.id.text :=
    fun row hrow => of_decide_eq_true (List.mem_filter.mp hrow).2
  unfold ServerState.removeCandidate
  dsimp only [ServerState.write]
  cases s.running with
  | none =>
    refine ⟨hcontent, rfl, rfl, fun hevents => ?_, hbinding⟩
    dsimp only
    rw [htombstones hevents]
    rfl
  | some r =>
    refine ⟨hcontent, rfl, rfl, fun hevents => ?_, fun row hrow => hbinding row (List.mem_of_mem_filter hrow)⟩
    dsimp only
    rw [htombstones hevents]
    rfl

theorem filter_not_eq_self {α : Type} {l : List α} {p : α → Bool} : l.filter (!p ·) = l ↔ ∀ x ∈ l, p x = false := by
  rw [List.filter_eq_self]
  exact forall₂_congr fun x _ => iff_of_eq (Bool.not_eq_true' (p x))

theorem unchanged_account_iff {restored : ServerState} (h : RestoredAccount hint id s restored)
    (hinstalled : (rebuild parts again.now).atOnce restored.content = .ok installed) :
    Unchanged (.account id) s (restored.install again.loadedAtMs installed) ↔ TraceFree parts hint again s (.account id) := by
  have hbindings : (restored.install again.loadedAtMs installed).responseAffinity.filter (Member.account id).ownsBinding = [] := by
    rw [List.filter_eq_nil_iff]
    intro row hrow howns
    exact h.responseAffinity row (ServerState.mem_install_responseAffinity hrow) (of_decide_eq_true howns)
  have hown : s.responseAffinity.filter (Member.account id).ownsBinding = [] ↔ ∀ row ∈ s.responseAffinity, row.candidateId ≠ id := by
    rw [List.filter_eq_nil_iff]
    exact forall₂_congr fun row _ => not_congr decide_eq_true_iff
  rw [h.content] at hinstalled
  constructor
  · intro hunchanged
    have hevents := hunchanged.usageEvents
    have hrollups := hunchanged.usageCandidateRollups
    rw [ServerState.install_usageEvents, h.usageEvents] at hevents
    rw [ServerState.install_usageCandidateRollups, h.usageCandidateRollups] at hrollups
    refine ⟨filter_not_eq_self.mp hevents, filter_not_eq_self.mp hrollups, hown.mp (hunchanged.bindings.symm.trans hbindings),
      fun hserved => ?_⟩
    have hserved' := hunchanged.served id rfl hserved
    rw [ServerState.install_running] at hserved'
    exact (selectable_account_iff hinstalled).mp hserved'
  · rintro ⟨hevents, hrollups, haffinity, hserved⟩
    constructor
    · rw [ServerState.install_content, h.content]
      exact ⟨rfl, fun _ _ => rfl⟩
    · rw [ServerState.install_usageEvents, h.usageEvents]
      exact filter_not_eq_self.mpr hevents
    · rw [ServerState.install_usageCandidateRollups, h.usageCandidateRollups]
      exact filter_not_eq_self.mpr hrollups
    · rw [ServerState.install_usageRequestTombstones, h.usageRequestTombstones hevents]
    · exact hbindings.trans (hown.mpr haffinity).symm
    · intro _ _ hselectable
      rw [ServerState.install_running]
      exact (selectable_account_iff hinstalled).mpr (hserved hselectable)

variable (hint) in
/-- What the way back makes of a deleted source. -/
theorem unchanged_source_iff {restored : ServerState} (h : restored = s)
    (hinstalled : (rebuild parts again.now).atOnce restored.content = .ok installed) :
    Unchanged (.source id) s (restored.install again.loadedAtMs installed) ↔ TraceFree parts hint again s (.source id) := by
  subst h
  have hbindings : Unchanged (.source id) restored (restored.install again.loadedAtMs installed) ↔
      (restored.install again.loadedAtMs installed).responseAffinity.filter (Member.source id).ownsBinding =
        restored.responseAffinity.filter (Member.source id).ownsBinding := by
    refine ⟨Unchanged.bindings, fun hbindings => ⟨?_, ?_, ?_, ?_, hbindings, nofun⟩⟩
    · rw [ServerState.install_content]
      exact ⟨rfl, fun _ _ => rfl⟩
    · exact ServerState.install_usageEvents ..
    · exact ServerState.install_usageCandidateRollups ..
    · exact ServerState.install_usageRequestTombstones ..
  rw [hbindings]
  cases installed with
  | none => exact iff_of_true rfl fun hinstalls => nomatch (rebuild_isSome hinstalled).mpr hinstalls
  | some r =>
    have hbuilt := rebuild_ok hinstalled
    show List.filter _ (restored.responseAffinity.filter _) = _ ↔ _
    rw [List.filter_comm, List.filter_eq_self]
    constructor
    · intro hkept _ row hrow howns
      obtain ⟨hexpires, hcandidate⟩ := Bool.and_eq_true_iff.mp (hkept row (List.mem_filter.mpr ⟨hrow, howns⟩))
      exact ⟨of_decide_eq_true hexpires, hbuilt.get?_isSome.mp hcandidate⟩
    · intro hkept row hrow
      obtain ⟨hrow, howns⟩ := List.mem_filter.mp hrow
      obtain ⟨hexpires, hcandidate⟩ := hkept ((rebuild_isSome hinstalled).mp rfl) row hrow howns
      exact Bool.and_eq_true_iff.mpr ⟨decide_eq_true hexpires, hbuilt.get?_isSome.mpr hcandidate⟩

/-! ## What a failed deletion leaves -/

theorem restores_restoreAccount (s : ServerState) (record : ServerAccountRecord) (secret : String) :
    Restores (restoreAccount record secret) s ((s.write (.saveSecret record.secretRef secret)).write (.saveAccount record)) :=
  (restores_write s _ _).bind (restores_write _ _ _)

theorem restores_restoreSource (s : ServerState) (record : SourceRecord) (secret : String) :
    Restores (restoreSource record secret) s ((s.write (.saveSecret record.secretRef secret)).write (.saveSource record)) :=
  (restores_write s _ _).bind (restores_write _ _ _)

/-- When a deletion that fails at the given step leaves everything as it was. -/
def LeavesNoTrace (parts : BuildParts) (hint : String → String) (again : RebuildClock) (s : ServerState) (member : Member) :
    DeletionFault → Prop
  | .storeDelete => True
  | .vaultDelete => False
  | .none | .rebuild => TraceFree parts hint again s member

/-- A failed deletion: the outcome of its error, or nothing to say. -/
def FailsCleanly (parts : BuildParts) (hint : String → String) (again : RebuildClock) (s : ServerState) (member : Member)
    (fault : DeletionFault) (e : ManagementError) (w : World ServerState) : Prop :=
  e.ofStep = true → (Unchanged member s w.state ↔ LeavesNoTrace parts hint again s member fault)

theorem meets_deleteAccount (id : String) (fault : DeletionFault) :
    Meets (deleteAccount parts hint clock again id ⟨s, fault.outcomes⟩) (fun _ _ => True)
      (FailsCleanly parts hint again s (.account id) fault) (fun _ => False) := by
  unfold deleteAccount
  rw [meets_bind, meets_get]
  dsimp only
  cases hrecord : s.content.accounts.get? id with
  | none => exact nofun
  | some record =>
    dsimp only
    cases hsecret : s.content.vault[record.secretRef]? with
    | none => exact nofun
    | some secret =>
      obtain rfl : record.id.text = id := RecordTable.get?_id (t := s.content.accounts) hrecord
      have hrestored := restoredAccount hint hrecord hsecret
      have hgone : ¬(s.content.accounts.delete record.id.text).get? record.id.text = s.content.accounts.get? record.id.text := by
        rw [RecordTable.get?_delete, if_pos rfl, hrecord]
        exact nofun
      -- The rebuild fails, or its first read does; the way back is the same.
      have hrebuild : ∀ outcomes, Single outcomes → fault = .none ∨ fault = .rebuild →
          Meets (rebuildRuntimeOrRollback parts clock again (restoreAccount record secret)
            ⟨((s.deleteAccountRows hint record.id.text).write (.deleteSecret record.secretRef)).removeCandidate record.id.text, outcomes⟩)
            (fun _ _ => True) (FailsCleanly parts hint again s (.account record.id.text) fault) (fun _ => False) := by
        intro outcomes houtcomes hfault
        refine meets_rebuildRuntimeOrRollback houtcomes (restores_restoreAccount _ record secret) (fun _ _ _ => trivial)
          (fun e installed rest hinstalled _ => ?_) (fun e e' _ => nofun) fun e e' _ => nofun
        rcases hfault with rfl | rfl <;> exact unchanged_account_iff hrestored hinstalled
      rw [meets_bind]
      cases fault with
      | none => exact hrebuild [] single_nil (.inl rfl)
      | storeDelete => exact fun _ => iff_of_true (Unchanged.refl _ s) trivial
      | vaultDelete =>
        rw [DeletionFault.outcomes, meets_write_succ, meets_bind, deleteSecret, meets_write_zero]
        refine fun _ => iff_of_false (fun hunchanged => hgone ?_) id
        rw [← hunchanged.sameMember.1]
        unfold ServerState.deleteAccountRows
        rw [hrecord, if_neg nofun]
        rfl
      | rebuild =>
        rw [DeletionFault.outcomes, meets_write_succ, meets_bind, deleteSecret, meets_write_succ, meets_bind, meets_modify]
        exact hrebuild (failingAt 0) (single_failingAt 0) (.inr rfl)

theorem meets_deleteSource (id : String) (fault : DeletionFault) :
    Meets (deleteSource parts clock again id ⟨s, fault.outcomes⟩) (fun _ _ => True)
      (FailsCleanly parts hint again s (.source id) fault) (fun _ => False) := by
  unfold deleteSource
  rw [meets_bind, meets_get]
  dsimp only
  cases hrecord : s.content.sources.get? id with
  | none => exact nofun
  | some record =>
    dsimp only
    cases hsecret : s.content.vault[record.secretRef]? with
    | none => exact nofun
    | some secret =>
      obtain rfl : record.id.text = id := RecordTable.get?_id (t := s.content.sources) hrecord
      have hrestored := restored_source hrecord hsecret
      have hrebuild : ∀ outcomes, Single outcomes → fault = .none ∨ fault = .rebuild →
          Meets (rebuildRuntimeOrRollback parts clock again (restoreSource record secret)
            ⟨(s.write (.deleteSource record.id.text)).write (.deleteSecret record.secretRef), outcomes⟩)
            (fun _ _ => True) (FailsCleanly parts hint again s (.source record.id.text) fault) (fun _ => False) := by
        intro outcomes houtcomes hfault
        refine meets_rebuildRuntimeOrRollback houtcomes (restores_restoreSource _ record secret) (fun _ _ _ => trivial)
          (fun e installed rest hinstalled _ => ?_) (fun e e' _ => nofun) fun e e' _ => nofun
        have hsame : (((s.write (.deleteSource record.id.text)).write (.deleteSecret record.secretRef)).write
            (.saveSecret record.secretRef secret)).write (.saveSource record) = s := congrArg ({ s with content := · }) hrestored
        rcases hfault with rfl | rfl <;> exact unchanged_source_iff hint hsame hinstalled
      rw [meets_bind]
      cases fault with
      | none => exact hrebuild [] single_nil (.inl rfl)
      | storeDelete => exact fun _ => iff_of_true (Unchanged.refl _ s) trivial
      | vaultDelete =>
        rw [DeletionFault.outcomes, meets_write_succ, meets_bind, deleteSecret, meets_write_zero]
        refine fun _ => iff_of_false (fun hunchanged => ?_) id
        have hsame : (s.content.sources.delete record.id.text).get? record.id.text = s.content.sources.get? record.id.text :=
          hunchanged.sameMember.1
        rw [RecordTable.get?_delete, if_pos rfl, hrecord] at hsame
        exact nomatch hsame
      | rebuild =>
        rw [DeletionFault.outcomes, meets_write_succ, meets_bind, deleteSecret, meets_write_succ]
        exact hrebuild (failingAt 0) (single_failingAt 0) (.inr rfl)

end

/-- A deletion that fails leaves everything as it was: always where the store fails, never where the vault does, and where
the rebuild fails exactly if there was nothing that is not brought back. -/
theorem failed_deletion_iff (parts : BuildParts) (hint : String → String) (clock again : RebuildClock) (s : ServerState)
    (member : Member) (fault : DeletionFault) :
    Meets (deleteMember parts hint clock again member ⟨s, fault.outcomes⟩) (fun _ _ => True)
      (fun e w => e.ofStep = true → (Unchanged member s w.state ↔ LeavesNoTrace parts hint again s member fault))
      (fun _ => False) := by
  cases member with
  | account id => exact meets_deleteAccount id fault
  | source id => exact meets_deleteSource id fault

/-! ## An account that was used -/

def usedEvent : UsageEvent where
  requestId := "request_1"
  attempt := 1
  localKeyId := "key_system"
  sourceId := "chatgpt"
  accountId := some "account_1"
  success := true
  latencyMs := ⟨7, by decide⟩
  createdAtMs := ⟨7, by decide⟩

def usedState : ServerState where
  content := sampleContent
  usageEvents := [{ usedEvent.entry id with id := 1 }]

/-- A read of the first rebuild fails; the second rebuild succeeds, and the account is back without its usage. A vault that
fails takes the account with it. -/
theorem deletion_loses_usage :
    (let run := deleteMember sampleParts id {} {} (.account "account_1") ⟨usedState, DeletionFault.rebuild.outcomes⟩
     run.1 = .error (.runtime "SQLite operation failed") ∧ (run.2.state.content.accounts.get? "account_1").isSome ∧
       run.2.state.usageEvents.length = 0 ∧ ¬Unchanged (.account "account_1") usedState run.2.state) ∧
    (let run := deleteMember sampleParts id {} {} (.account "account_1") ⟨usedState, DeletionFault.vaultDelete.outcomes⟩
     run.1 = .error .vault ∧ run.2.state.content.accounts.get? "account_1" = none ∧
       ¬Unchanged (.account "account_1") usedState run.2.state) := by
  refine ⟨⟨by decide +kernel, by decide +kernel, by decide +kernel, fun hunchanged => ?_⟩, by decide +kernel, by decide +kernel,
    fun hunchanged => ?_⟩
  · exact absurd (congrArg List.length hunchanged.usageEvents) (by decide +kernel)
  · exact absurd (congrArg Option.isSome hunchanged.sameMember.1) (by decide +kernel)

end Zenith.Server
