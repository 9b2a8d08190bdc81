import Zenith.Server.Rollback

/-!
# Rotating the profile credential

`http/management/keys.rs`. A rotation adds a key with a secret of its own beside the system key, so that the gateway
accepts both; its commit gives the secret to the system key and deletes all rotations, its abort deletes the one. Each
of the three calls has its own way back, and whatever fails, the client that holds the secret of the last commit is
never locked out (`profile_key_rotation_keeps_client`).

Reads of the vault are from memory and do not fail; the label and the times of a key and the base URL are left out.
-/

namespace Zenith.Server

open Std Zenith.Faults Zenith.Publishing Zenith.Records Zenith.Runs Zenith.Tables Zenith.Text

def systemGatewayKeyId : String := "key_system"

def profileKeyRotationPrefix : String := "key_profile_rotation_"

def saveKey (key : GatewayKeyRecord) : ServerOp Unit := Op.write (·.write (.saveKey key)) .store

def deleteKey (id : String) : ServerOp Unit := Op.write (·.write (.deleteKey id)) .store

/-- The reads of the store with which a call begins. -/
def readStore : ServerOp ServerState := do
  Op.write id .store
  Op.get

structure ProfileKeyRotation where
  rotationId : String
  keyId : String
  secret : String
deriving DecidableEq, Repr

def validateProfileRotationId (id : String) : Bool :=
  profileKeyRotationPrefix.utf8ByteSize < id.utf8ByteSize && id.utf8ByteSize ≤ 128 && startsWith id profileKeyRotationPrefix &&
    id.toList.all fun c => c.isAlphanum || c = '-' || c = '_'

/-- The rotations with their secrets. -/
def ServerContent.profileRotations (content : ServerContent) : List (GatewayKeyRecord × Option String) :=
  (content.keys.all.filter fun key => key.system && startsWith key.id profileKeyRotationPrefix).map fun key =>
    (key, content.vault[key.secretRef]?)

section
variable (parts : BuildParts)

/-- `uuid` and `secret` are the generated id and key. -/
def prepareProfileKeyRotation (clock again : RebuildClock) (uuid secret : String) : ServerOp ProfileKeyRotation := do
  let s ← readStore
  if !s.content.gatewayEnabled then Op.throw (.refused "profile_attach_unavailable")
  else
    match s.content.keys.get? systemGatewayKeyId with
    | none => Op.throw (.refused "system_key_missing")
    | some current =>
      let rotationId := profileKeyRotationPrefix ++ uuid
      let secretRef := "key:" ++ rotationId
      saveSecret secretRef secret
      match ← (saveKey { current with id := rotationId, enabled := true, secretRef }).attempt with
      | .error e =>
        let _ ← (deleteSecret secretRef).attempt
        Op.throw e
      | .ok () =>
        rebuildRuntimeOrRollback parts clock again do
          deleteKey rotationId
          deleteSecret secretRef
        return { rotationId, keyId := systemGatewayKeyId, secret }

def restoreRotations : List (GatewayKeyRecord × Option String) → ServerOp Unit
  | [] => return
  | (key, secret) :: rotations => do
    if let some secret := secret then saveSecret key.secretRef secret
    saveKey key
    restoreRotations rotations

def restoreProfileRotation (current : GatewayKeyRecord) (currentSecret : String)
    (rotations : List (GatewayKeyRecord × Option String)) : ServerOp Unit := do
  saveSecret current.secretRef currentSecret
  restoreRotations rotations

/-- The loop of the commit. Where a deletion fails, `restore` and a rebuild follow, and the call fails. -/
def deleteRotations (again : RebuildClock) (restore : ServerOp Unit) :
    List (GatewayKeyRecord × Option String) → ServerOp Unit
  | [] => return
  | (key, _) :: rotations => do
    match ← (deleteKey key.id).attempt with
    | .error e => rollbackAndRebuildRuntime parts again e restore
    | .ok () =>
      match ← (deleteSecret key.secretRef).attempt with
      | .error e => rollbackAndRebuildRuntime parts again e restore
      | .ok () => deleteRotations again restore rotations

def commitProfileKeyRotation (clock again : RebuildClock) (id : String) : ServerOp Unit := do
  if !validateProfileRotationId id then Op.throw (.refused "profile_rotation_invalid")
  else
    let s ← readStore
    match s.content.keys.get? systemGatewayKeyId with
    | none => Op.throw (.refused "system_key_missing")
    | some current =>
      let rotations := s.content.profileRotations
      match (rotations.find? (·.1.id = id)).bind (·.2) with
      | none => Op.throw (.refused "profile_rotation_missing")
      | some newSecret =>
        match s.content.vault[current.secretRef]? with
        | none => Op.throw (.refused "system_key_missing")
        | some oldSecret =>
          saveSecret current.secretRef newSecret
          deleteRotations parts again (restoreProfileRotation current oldSecret rotations) rotations
          rebuildRuntimeOrRollback parts clock again (restoreProfileRotation current oldSecret rotations)

def abortProfileKeyRotation (clock again : RebuildClock) (id : String) : ServerOp Unit := do
  if !validateProfileRotationId id then Op.throw (.refused "profile_rotation_invalid")
  else
    let s ← readStore
    match (s.content.keys.get? id).filter (·.system) with
    | none => Op.throw (.refused "profile_rotation_missing")
    | some key =>
      let secret := s.content.vault[key.secretRef]?
      deleteKey id
      match ← (deleteSecret key.secretRef).attempt with
      | .error e =>
        let _ ← (saveKey key).attempt
        Op.throw e
      | .ok () => rebuildRuntimeOrRollback parts clock again (restoreRotations [(key, secret)])

end

/-! ## What the gateway accepts -/

/-- The running gateway takes the secret for one of its keys. -/
def Accepted (running : Option ServerRuntime) (secret : String) : Prop :=
  ∃ r ∈ running, ∃ key ∈ r.keys, key.enabled = true ∧ key.secret = secret

section
variable {parts : BuildParts} {content : ServerContent}

theorem accepted_iff {now : String → Nat} {installed : Option ServerRuntime} (h : (rebuild parts now).atOnce content = .ok installed)
    {secret : String} : Accepted installed secret ↔
      content.Installs parts ∧ ∃ record, content.HasKey record ∧ content.vault[record.secretRef]? = some secret := by
  rcases rebuild_cases h with ⟨rfl, hnot⟩ | ⟨r, accounts, keys, rfl, hparts, hne, hpool⟩
  · exact iff_of_false (fun ⟨_, hnone, _⟩ => absurd hnone (Option.not_mem_none _)) fun haccepts => hnot haccepts.1
  · obtain rfl := (fromMixedPool_ok hpool).1
    have hinstalls := hparts.keys_ne_nil.mp hne
    constructor
    · rintro ⟨_, hr, key, hkey, -, rfl⟩
      obtain rfl := Option.some.inj hr
      obtain ⟨-, record, secret, hrecord, hsecret, rfl⟩ := hparts.mem_keys.mp hkey
      exact ⟨hinstalls, record, hrecord, hsecret⟩
    · rintro ⟨-, record, hrecord, hsecret⟩
      exact ⟨r, rfl, _, hparts.mem_keys.mpr ⟨hinstalls.2, record, secret, hrecord, hsecret, rfl⟩, hrecord.2.1, rfl⟩

end

/-! ## Undoing a call -/

/-- All but the way back itself: what was restored is as it was, and the gateway too or built anew from that. -/
def ManagementError.restored : ManagementError → Bool
  | .notRestored _ _ => false
  | _ => true

/-- The gateway is built from the content. -/
def Rebuilt (parts : BuildParts) (content : ServerContent) (s : ServerState) : Prop :=
  s.content = content ∧ ∃ now, (rebuild parts now).atOnce content = .ok s.running

def Undone (parts : BuildParts) (s s' : ServerState) : Prop :=
  s'.content = s.content ∧ (s'.running = s.running ∨ ∃ now, (rebuild parts now).atOnce s.content = .ok s'.running)

def FailsUndone (parts : BuildParts) (s : ServerState) (e : ManagementError) (w : World ServerState) : Prop :=
  e.restored = true → Undone parts s w.state

section
variable {parts : BuildParts} {clock again : RebuildClock} {s s' : ServerState} {outcomes : List Outcome}

theorem Undone.refl (parts : BuildParts) (s : ServerState) : Undone parts s s := ⟨rfl, .inl rfl⟩

variable {installed : Option ServerRuntime}

theorem undone_install (h : (rebuild parts again.now).atOnce s.content = .ok installed) :
    Undone parts s (s.install again.loadedAtMs installed) := by
  refine ⟨s.install_content _ _, .inr ⟨again.now, ?_⟩⟩
  rw [ServerState.install_running]
  exact h

theorem rebuilt_install (h : (rebuild parts clock.now).atOnce s.content = .ok installed) :
    Rebuilt parts s.content (s.install clock.loadedAtMs installed) := by
  refine ⟨s.install_content _ _, clock.now, ?_⟩
  rw [ServerState.install_running]
  exact h

variable {rollback : ServerOp Unit}

theorem meets_rollback_undone {Q : Unit → World ServerState → Prop} (houtcomes : Single outcomes)
    (hrollback : Restores rollback s' s) (e : ManagementError) :
    Meets (rollbackAndRebuildRuntime parts again e rollback ⟨s', outcomes⟩) Q (FailsUndone parts s) fun _ => False :=
  meets_rollbackAndRebuildRuntime hrollback houtcomes (fun _ _ hinstalled _ => undone_install hinstalled)
    (fun _ _ _ => Undone.refl parts s) fun _ _ hrestored => nomatch hrestored

theorem meets_rebuild_undone (houtcomes : Single outcomes) (hrollback : Restores rollback s' s) :
    Meets (rebuildRuntimeOrRollback parts clock again rollback ⟨s', outcomes⟩) (fun _ w => Rebuilt parts s'.content w.state)
      (FailsUndone parts s) fun _ => False :=
  meets_rebuildRuntimeOrRollback houtcomes hrollback (fun _ _ hinstalled => rebuilt_install hinstalled)
    (fun _ _ _ hinstalled _ => undone_install hinstalled) (fun _ _ _ _ => Undone.refl parts s) fun _ _ _ hrestored => nomatch hrestored

theorem meets_readStore {Q : ServerState → World ServerState → Prop} {E : ManagementError → World ServerState → Prop}
    {C : World ServerState → Prop} (houtcomes : Single outcomes) (hQ : Q s ⟨s, outcomes.tail⟩) (hE : E .store ⟨s, []⟩) :
    Meets (readStore ⟨s, outcomes⟩) Q E C := by
  unfold readStore
  rw [meets_bind]
  exact meets_write_single houtcomes hQ hE

/-! ## Preparing -/

theorem restores_saveKey (s : ServerState) (key : GatewayKeyRecord) : Restores (saveKey key) s (s.write (.saveKey key)) :=
  restores_write s _ _

theorem restores_deleteKey (s : ServerState) (id : String) : Restores (deleteKey id) s (s.write (.deleteKey id)) :=
  restores_write s _ _

theorem restores_saveSecret (s : ServerState) (secretRef secret : String) :
    Restores (saveSecret secretRef secret) s (s.write (.saveSecret secretRef secret)) := restores_write s _ _

theorem restores_deleteSecret (s : ServerState) (secretRef : String) :
    Restores (deleteSecret secretRef) s (s.write (.deleteSecret secretRef)) := restores_write s _ _

/-- A secret that was not there is deleted again. -/
theorem delete_saved_secret {secretRef : String} (h : s.content.vault[secretRef]? = none) (secret : String) :
    (s.write (.saveSecret secretRef secret)).write (.deleteSecret secretRef) = s := by
  have hvault : (s.content.vault.insert secretRef secret).erase secretRef = s.content.vault := by
    refine ExtTreeMap.ext_getElem? fun other => ?_
    rw [getElem?_erase_ite, getElem?_insert_ite]
    split
    case isTrue heq => rw [← heq, h]
    case isFalse => rfl
  exact congrArg (fun vault => { s with content := { s.content with vault } }) hvault

/-- The new key and its secret are deleted again. -/
theorem restores_newKey (key : GatewayKeyRecord) (hkey : s.content.keys.get? key.id = none)
    (hsecret : s.content.vault[key.secretRef]? = none) (secret : String) :
    Restores (do deleteKey key.id; deleteSecret key.secretRef) ((s.write (.saveSecret key.secretRef secret)).write (.saveKey key)) s := by
  have hkeys : (s.content.keys.upsert key).delete key.id = s.content.keys := by
    refine RecordTable.ext fun other => ?_
    rw [RecordTable.get?_delete, RecordTable.get?_upsert]
    split
    case isTrue heq => rw [← heq, hkey]
    case isFalse => rfl
  have hback := (restores_deleteKey ((s.write (.saveSecret key.secretRef secret)).write (.saveKey key)) key.id).bind
    (restores_deleteSecret _ key.secretRef)
  have hwithout : (((s.write (.saveSecret key.secretRef secret)).write (.saveKey key)).write (.deleteKey key.id)).write
      (.deleteSecret key.secretRef) = s := by
    refine Eq.trans ?_ (delete_saved_secret hsecret secret)
    exact congrArg (fun keys => { s with content := { s.content with
      keys, vault := (s.content.vault.insert key.secretRef secret).erase key.secretRef } }) hkeys
  rwa [hwithout] at hback

/-- The key of a new rotation. -/
def GatewayKeyRecord.rotation (current : GatewayKeyRecord) (rotationId : String) : GatewayKeyRecord :=
  { current with id := rotationId, enabled := true, secretRef := "key:" ++ rotationId }

theorem meets_prepareProfileKeyRotation {uuid secret : String} (houtcomes : Single outcomes)
    (hkey : s.content.keys.get? (profileKeyRotationPrefix ++ uuid) = none)
    (hsecret : s.content.vault["key:" ++ (profileKeyRotationPrefix ++ uuid)]? = none) :
    Meets (prepareProfileKeyRotation parts clock again uuid secret ⟨s, outcomes⟩)
      (fun _ w => ∃ current, s.content.keys.get? systemGatewayKeyId = some current ∧
        Rebuilt parts ((s.write (.saveSecret ("key:" ++ (profileKeyRotationPrefix ++ uuid)) secret)).write
          (.saveKey (current.rotation (profileKeyRotationPrefix ++ uuid)))).content w.state)
      (FailsUndone parts s) fun _ => False := by
  unfold prepareProfileKeyRotation
  rw [meets_bind]
  refine meets_readStore houtcomes ?_ fun _ => Undone.refl parts s
  split
  case isTrue => exact fun _ => Undone.refl parts s
  case isFalse =>
    cases hcurrent : s.content.keys.get? systemGatewayKeyId with
    | none => exact fun _ => Undone.refl parts s
    | some current =>
      dsimp only
      rw [meets_bind, saveSecret]
      refine meets_write_single houtcomes.tail ?_ fun _ => Undone.refl parts s
      rw [meets_bind, meets_attempt, saveKey]
      refine meets_write_single houtcomes.tail.tail ?_ ?_
      · have hback := restores_newKey (current.rotation (profileKeyRotationPrefix ++ uuid)) hkey hsecret secret
        dsimp only
        rw [meets_bind]
        exact (meets_rebuild_undone houtcomes.tail.tail.tail hback).mono (fun _ w hw => ⟨current, rfl, hw⟩) (fun _ _ h => h) fun _ => False.elim
      · -- The new key is not saved; its secret is deleted again.
        exact fun _ => ⟨congrArg ServerState.content (delete_saved_secret hsecret secret), .inl rfl⟩

/-! ## Deleting rotations, and bringing them back -/

/-- The content lacks at most keys of the rotations, and secrets of theirs. -/
structure Missing (content : ServerContent) (rotations : List (GatewayKeyRecord × Option String)) (content' : ServerContent) :
    Prop where
  rest : { content' with keys := content.keys, vault := content.vault } = content
  keys : ∀ id, content'.keys.get? id = content.keys.get? id ∨
    content'.keys.get? id = none ∧ ∃ rotation ∈ rotations, rotation.1.id = id
  vault : ∀ secretRef : String, content'.vault[secretRef]? = content.vault[secretRef]? ∨
    content'.vault[secretRef]? = none ∧ ∃ rotation ∈ rotations, rotation.1.secretRef = secretRef

/-- The rotations are those of the content. -/
def OfContent (content : ServerContent) (rotations : List (GatewayKeyRecord × Option String)) : Prop :=
  ∀ rotation ∈ rotations, content.keys.get? rotation.1.id = some rotation.1 ∧ rotation.2 = content.vault[rotation.1.secretRef]?

variable {content content' : ServerContent} {rotations : List (GatewayKeyRecord × Option String)}

theorem Missing.refl (content : ServerContent) (rotations : List (GatewayKeyRecord × Option String)) :
    Missing content rotations content := ⟨rfl, fun _ => .inl rfl, fun _ => .inl rfl⟩

theorem Missing.eq_of_nil (h : Missing content [] content') : content' = content := by
  have hkeys : content'.keys = content.keys :=
    RecordTable.ext fun id => (h.keys id).resolve_right fun ⟨_, _, hmem, _⟩ => (List.not_mem_nil hmem).elim
  have hvault : content'.vault = content.vault :=
    ExtTreeMap.ext_getElem? fun secretRef => (h.vault secretRef).resolve_right fun ⟨_, _, hmem, _⟩ => (List.not_mem_nil hmem).elim
  rw [← h.rest, ← hkeys, ← hvault]

variable {rotation : GatewayKeyRecord × Option String}

theorem Missing.delete (h : Missing content rotations content')
    (hmem : rotation ∈ rotations) : Missing content rotations ((Write.deleteSecret rotation.1.secretRef).apply
      ((Write.deleteKey rotation.1.id).apply content')) := by
  refine ⟨h.rest, fun id => ?_, fun secretRef => ?_⟩
  · show (content'.keys.delete rotation.1.id).get? id = _ ∨ (content'.keys.delete rotation.1.id).get? id = none ∧ _
    rw [RecordTable.get?_delete]
    split
    case isTrue hid => exact .inr ⟨rfl, rotation, hmem, hid⟩
    case isFalse => exact h.keys id
  · show (content'.vault.erase rotation.1.secretRef)[secretRef]? = _ ∨
      (content'.vault.erase rotation.1.secretRef)[secretRef]? = none ∧ _
    rw [getElem?_erase_ite]
    split
    case isTrue href => exact .inr ⟨rfl, rotation, hmem, href⟩
    case isFalse => exact h.vault secretRef

/-- One rotation is back. -/
theorem Missing.restore (h : Missing content (rotation :: rotations) content')
    (hrotation : content.keys.get? rotation.1.id = some rotation.1) (hsecret : rotation.2 = content.vault[rotation.1.secretRef]?)
    {vault : Table String String} (hvault : ∀ secretRef : String, vault[secretRef]? =
      if rotation.1.secretRef = secretRef then rotation.2.or content'.vault[secretRef]? else content'.vault[secretRef]?) :
    Missing content rotations { content' with keys := content'.keys.upsert rotation.1, vault } := by
  refine ⟨h.rest, fun id => ?_, fun secretRef => ?_⟩
  · show (content'.keys.upsert rotation.1).get? id = _ ∨ (content'.keys.upsert rotation.1).get? id = none ∧ _
    rw [RecordTable.get?_upsert]
    split
    case isTrue hid => exact .inl (by rw [← hid, hrotation])
    case isFalse hid =>
      refine (h.keys id).imp_right fun ⟨hnone, other, hmem, heq⟩ => ⟨hnone, other, ?_, heq⟩
      exact (List.mem_cons.mp hmem).resolve_left fun hsame => hid (hsame ▸ heq)
  · show vault[secretRef]? = _ ∨ vault[secretRef]? = none ∧ _
    rw [hvault]
    split
    case isTrue href =>
      rw [hsecret, href]
      cases hget : content.vault[secretRef]? with
      | some secret => exact .inl rfl
      | none =>
        rw [Option.none_or]
        refine .inl ((h.vault secretRef).elim (fun hsame => hsame.trans hget) And.left)
    case isFalse href =>
      refine (h.vault secretRef).imp_right fun ⟨hnone, other, hmem, heq⟩ => ⟨hnone, other, ?_, heq⟩
      exact (List.mem_cons.mp hmem).resolve_left fun hsame => href (hsame ▸ heq)

theorem restores_restoreRotations (hof : OfContent s.content rotations) (h : Missing s.content rotations content') :
    Restores (restoreRotations rotations) { s with content := content' } s := by
  induction rotations generalizing content' with
  | nil =>
    obtain rfl := h.eq_of_nil
    exact restores_pure s
  | cons rotation rotations ih =>
    obtain ⟨key, secret⟩ := rotation
    obtain ⟨hkey, hsecret⟩ := hof _ List.mem_cons_self
    have hrest := fun content' hmissing => @ih content' (fun other hmem => hof other (List.mem_cons_of_mem _ hmem)) hmissing
    unfold restoreRotations
    cases secret with
    | none =>
      refine (restores_pure _).bind ((restores_saveKey _ key).bind (hrest _ (h.restore hkey hsecret fun secretRef => ?_)))
      exact (ite_self _).symm
    | some secret =>
      refine (restores_saveSecret _ key.secretRef secret).bind ((restores_saveKey _ key).bind (hrest _ (h.restore hkey hsecret
        fun secretRef => ?_)))
      rw [Option.some_or]
      exact getElem?_insert_ite _ _ _ _

/-! ## Aborting -/

theorem meets_abortProfileKeyRotation {id : String} (houtcomes : Single outcomes) :
    Meets (abortProfileKeyRotation parts clock again id ⟨s, outcomes⟩)
      (fun _ w => validateProfileRotationId id = true ∧ ∃ key, s.content.keys.get? id = some key ∧
        Rebuilt parts ((s.write (.deleteKey id)).write (.deleteSecret key.secretRef)).content w.state)
      (FailsUndone parts s) fun _ => False := by
  unfold abortProfileKeyRotation
  split
  case isTrue => exact fun _ => Undone.refl parts s
  case isFalse hvalid =>
    rw [Bool.not_eq_true', Bool.not_eq_false] at hvalid
    rw [meets_bind]
    refine meets_readStore houtcomes ?_ fun _ => Undone.refl parts s
    cases hkey : (s.content.keys.get? id).filter (·.system) with
    | none => exact fun _ => Undone.refl parts s
    | some key =>
      have hget : s.content.keys.get? id = some key := (Option.filter_eq_some_iff.mp hkey).1
      obtain rfl : key.id = id := RecordTable.get?_id (t := s.content.keys) hget
      dsimp only
      rw [meets_bind, deleteKey]
      refine meets_write_single houtcomes.tail ?_ fun _ => Undone.refl parts s
      rw [meets_bind, meets_attempt, deleteSecret]
      refine meets_write_single houtcomes.tail.tail ?_ ?_
      · have hmissing := (Missing.refl s.content [(key, s.content.vault[key.secretRef]?)]).delete List.mem_cons_self
        have hback := restores_restoreRotations (s := s) (fun _ hmem => List.mem_singleton.mp hmem ▸ ⟨hget, rfl⟩) hmissing
        exact (meets_rebuild_undone houtcomes.tail.tail.tail hback).mono (fun _ w hw => ⟨hvalid, key, hget, hw⟩) (fun _ _ h => h) fun _ => False.elim
      · -- The secret is not deleted; its key is saved again.
        refine fun _ => ⟨?_, .inl rfl⟩
        show { s.content with keys := (s.content.keys.delete key.id).upsert key } = s.content
        rw [RecordTable.upsert_delete hget]

/-! ## Committing -/

/-- Nothing of the rotations is left. -/
def Cleared (rotations : List (GatewayKeyRecord × Option String)) (content : ServerContent) : Prop :=
  ∀ rotation ∈ rotations, content.keys.get? rotation.1.id = none ∧ content.vault[rotation.1.secretRef]? = none

/-- The deletions stay away from the base, and from what they have deleted. -/
theorem meets_deleteRotations {base : ServerContent} {restore : ServerOp Unit} {todo : List (GatewayKeyRecord × Option String)}
    (hrestore : ∀ content', Missing base rotations content' → Restores restore { s with content := content' } s)
    (htodo : ∀ rotation ∈ todo, rotation ∈ rotations) (hmissing : Missing base rotations content')
    (hdone : ∀ rotation ∈ rotations, rotation ∈ todo ∨
      content'.keys.get? rotation.1.id = none ∧ content'.vault[rotation.1.secretRef]? = none)
    (houtcomes : Single outcomes) :
    Meets (deleteRotations parts again restore todo ⟨{ s with content := content' }, outcomes⟩)
      (fun _ w => ∃ content'', w.state = { s with content := content'' } ∧ Missing base rotations content'' ∧
        Cleared rotations content'' ∧ Single w.outcomes)
      (FailsUndone parts s) fun _ => False := by
  induction todo generalizing content' outcomes with
  | nil => exact ⟨content', rfl, hmissing, fun rotation hmem => (hdone rotation hmem).resolve_left List.not_mem_nil, houtcomes⟩
  | cons rotation todo ih =>
    obtain ⟨key, secret⟩ := rotation
    have hkey := htodo _ List.mem_cons_self
    have hhalf : Missing base rotations ((Write.deleteKey key.id).apply content') := by
      refine ⟨hmissing.rest, fun id => ?_, hmissing.vault⟩
      exact (hmissing.delete hkey).keys id
    unfold deleteRotations
    rw [meets_bind, meets_attempt, deleteKey]
    refine meets_write_single houtcomes ?_ (meets_rollback_undone single_nil (hrestore content' hmissing) _)
    dsimp only
    rw [meets_bind, meets_attempt, deleteSecret]
    refine meets_write_single houtcomes.tail ?_ (meets_rollback_undone single_nil (hrestore _ hhalf) _)
    refine ih (fun other hmem => htodo other (List.mem_cons_of_mem _ hmem)) (hmissing.delete hkey) (fun other hmem => ?_)
      houtcomes.tail.tail
    rcases hdone other hmem with htodo | ⟨hnokey, hnosecret⟩
    · rcases List.mem_cons.mp htodo with rfl | htodo
      · refine .inr ⟨?_, ?_⟩
        · exact (RecordTable.get?_delete _ _).trans (if_pos rfl)
        · exact (getElem?_erase_ite _ _ _).trans (if_pos rfl)
      · exact .inl htodo
    · refine .inr ⟨?_, ?_⟩
      · exact (RecordTable.get?_delete _ _).trans (by rw [hnokey, ite_self])
      · exact (getElem?_erase_ite content'.vault _ _).trans (by rw [hnosecret, ite_self])

theorem ofContent_profileRotations (content : ServerContent) : OfContent content content.profileRotations := by
  intro rotation hmem
  obtain ⟨key, hkey, rfl⟩ := List.mem_map.mp hmem
  exact ⟨RecordTable.mem_all.mp (List.mem_filter.mp hkey).1, rfl⟩

variable (content') in
/-- The secret of the system key is overwritten, and then rotations are deleted: all of it comes back. -/
theorem restores_restoreProfileRotation {current : GatewayKeyRecord} {oldSecret : String} (newSecret : String)
    (hold : s.content.vault[current.secretRef]? = some oldSecret) (hof : OfContent s.content rotations)
    (h : Missing (s.write (.saveSecret current.secretRef newSecret)).content rotations content') :
    Restores (restoreProfileRotation current oldSecret rotations) { s with content := content' } s := by
  refine (restores_saveSecret _ current.secretRef oldSecret).bind (restores_restoreRotations hof ?_)
  refine ⟨?_, h.keys, fun secretRef => ?_⟩
  · exact (congrArg (fun content : ServerContent => { content with vault := s.content.vault }) h.rest :)
  · show (content'.vault.insert current.secretRef oldSecret)[secretRef]? = _ ∨
      (content'.vault.insert current.secretRef oldSecret)[secretRef]? = none ∧ _
    rw [getElem?_insert_ite]
    split
    case isTrue href => exact .inl (href ▸ hold.symm)
    case isFalse href =>
      refine (h.vault secretRef).imp_left fun hsame => hsame.trans ?_
      exact (getElem?_insert_ite _ _ _ _).trans (if_neg href)

theorem meets_commitProfileKeyRotation {id : String} (houtcomes : Single outcomes) :
    Meets (commitProfileKeyRotation parts clock again id ⟨s, outcomes⟩)
      (fun _ w => ∃ current rotation newSecret content', s.content.keys.get? systemGatewayKeyId = some current ∧
        s.content.keys.get? id = some rotation ∧ s.content.vault[rotation.secretRef]? = some newSecret ∧
        Missing (s.write (.saveSecret current.secretRef newSecret)).content s.content.profileRotations content' ∧
        Cleared s.content.profileRotations content' ∧ Rebuilt parts content' w.state)
      (FailsUndone parts s) fun _ => False := by
  unfold commitProfileKeyRotation
  split
  case isTrue => exact fun _ => Undone.refl parts s
  case isFalse =>
    rw [meets_bind]
    refine meets_readStore houtcomes ?_ fun _ => Undone.refl parts s
    cases hcurrent : s.content.keys.get? systemGatewayKeyId with
    | none => exact fun _ => Undone.refl parts s
    | some current =>
      dsimp only
      cases hnew : (s.content.profileRotations.find? (·.1.id = id)).bind (·.2) with
      | none => exact fun _ => Undone.refl parts s
      | some newSecret =>
        dsimp only
        cases hold : s.content.vault[current.secretRef]? with
        | none => exact fun _ => Undone.refl parts s
        | some oldSecret =>
          have hof := ofContent_profileRotations s.content
          obtain ⟨rotation, hfind, hsecret⟩ := Option.bind_eq_some_iff.mp hnew
          have hrotation := hof rotation (List.mem_of_find?_eq_some hfind)
          have hid : rotation.1.id = id := of_decide_eq_true (List.find?_some (p := fun other : GatewayKeyRecord × Option String => decide (other.1.id = id)) hfind)
          dsimp only
          rw [meets_bind, saveSecret]
          refine meets_write_single houtcomes.tail ?_ fun _ => Undone.refl parts s
          rw [meets_bind]
          have hrestore := fun content' => restores_restoreProfileRotation content' newSecret hold hof
          refine (meets_deleteRotations hrestore (fun _ hmem => hmem) (Missing.refl _ _) (fun _ hmem => .inl hmem)
            houtcomes.tail.tail).mono ?_ (fun _ _ h => h) fun _ => False.elim
          rintro _ w ⟨content', hstate, hmissing, hcleared, hrest⟩
          obtain ⟨_, outcomes'⟩ := w
          obtain rfl := hstate
          refine (meets_rebuild_undone hrest (hrestore content' hmissing)).mono (fun _ w hw => ?_) (fun _ _ h => h) fun _ => False.elim
          exact ⟨current, rotation.1, newSecret, content', rfl, hid ▸ hrotation.1, hrotation.2.symm.trans hsecret, hmissing,
            hcleared, hw⟩

end

/-! ## Runs of calls -/

inductive RotationRequest
  | prepare (uuid secret : String)
  | commit (id : String)
  | abort (id : String)
deriving DecidableEq, Repr

/-- A call with its clocks, and the place of the write that fails. -/
structure RotationCall where
  request : RotationRequest
  clock : RebuildClock := {}
  again : RebuildClock := {}
  fault : Option Nat := none

/-- The server, and the secret of the last committed rotation or the initial one. -/
structure RotationRun where
  server : ServerState
  committed : String

def ServerContent.rotationSecret (content : ServerContent) (id : String) : Option String :=
  (content.keys.get? id).bind fun key => content.vault[key.secretRef]?

namespace RotationCall

def outcomes (call : RotationCall) : List Outcome :=
  match call.fault with
  | none => []
  | some place => failingAt place

def answer (parts : BuildParts) (call : RotationCall) (s : ServerState) : Result ManagementError Unit × World ServerState :=
  match call.request with
  | .prepare uuid secret =>
    (prepareProfileKeyRotation parts call.clock call.again uuid secret >>= fun _ => pure ()) ⟨s, call.outcomes⟩
  | .commit id => commitProfileKeyRotation parts call.clock call.again id ⟨s, call.outcomes⟩
  | .abort id => abortProfileKeyRotation parts call.clock call.again id ⟨s, call.outcomes⟩

/-- The id of a new rotation is new. -/
def fresh (call : RotationCall) (s : ServerState) : Bool :=
  match call.request with
  | .prepare uuid _ => (s.content.keys.get? (profileKeyRotationPrefix ++ uuid)).isNone
  | _ => true

/-- The writes of the way back succeed. -/
def restored (parts : BuildParts) (call : RotationCall) (s : ServerState) : Bool :=
  match (call.answer parts s).1 with
  | .error e => e.restored
  | _ => true

end RotationCall

def RotationRun.step (parts : BuildParts) (run : RotationRun) (call : RotationCall) : RotationRun where
  server := (call.answer parts run.server).2.state
  committed :=
    match call.request, (call.answer parts run.server).1 with
    | .commit id, .ok () => (run.server.content.rotationSecret id).getD run.committed
    | _, _ => run.committed

def AllowedCall (parts : BuildParts) (run : RotationRun) (call : RotationCall) : Prop :=
  call.fresh run.server = true ∧ call.restored parts run.server = true

/-- The prefix of the references of the rotations' secrets. -/
def rotationRefPrefix : String := "key:" ++ profileKeyRotationPrefix

/-- The system key has the secret, and the rotations have keys and secrets of their own. -/
structure Orderly (committed : String) (content : ServerContent) : Prop where
  system : ∃ key, content.keys.get? systemGatewayKeyId = some key ∧ key.enabled = true ∧ key.system = true ∧
    startsWith key.secretRef rotationRefPrefix = false ∧ content.vault[key.secretRef]? = some committed
  rotation : ∀ id key, content.keys.get? id = some key → startsWith id profileKeyRotationPrefix = true →
    key.system = true ∧ key.secretRef = "key:" ++ id
  secret : ∀ secretRef : String, startsWith secretRef rotationRefPrefix = true → content.vault[secretRef]?.isSome = true →
    ∃ key, content.keys.get? key.id = some key ∧ startsWith key.id profileKeyRotationPrefix = true ∧ key.secretRef = secretRef

/-- The server is as start-up leaves it, with or without rotations. -/
structure Attached (parts : BuildParts) (run : RotationRun) : Prop where
  orderly : Orderly run.committed run.server.content
  running : ∃ now, (rebuild parts now).atOnce run.server.content = .ok run.server.running

/-- What the call does to the client. -/
structure KeepsClient (parts : BuildParts) (run : RotationRun) (call : RotationCall) : Prop where
  committed : ∀ id, call.request = .commit id → (call.answer parts run.server).1 = .ok () →
    ∃ key secret, (run.step parts call).server.content.keys.get? systemGatewayKeyId = some key ∧
      run.server.content.rotationSecret id = some secret ∧
      (run.step parts call).server.content.vault[key.secretRef]? = some secret
  cleared : ∀ id, call.request = .commit id → (call.answer parts run.server).1 = .ok () →
    (∀ id, startsWith id profileKeyRotationPrefix = true → (run.step parts call).server.content.keys.get? id = none) ∧
      ∀ secretRef : String, startsWith secretRef rotationRefPrefix = true →
        (run.step parts call).server.content.vault[secretRef]? = none
  failed : ∀ e, (call.answer parts run.server).1 = .error e →
    (run.step parts call).server.content.keys = run.server.content.keys ∧
      (run.step parts call).server.content.vault = run.server.content.vault ∧
      ∀ secret, Accepted (run.step parts call).server.running secret ↔ Accepted run.server.running secret

section
variable {parts : BuildParts} {content content' : ServerContent} {committed : String}

theorem startsWith_rotationId (uuid : String) : startsWith (profileKeyRotationPrefix ++ uuid) profileKeyRotationPrefix = true := by
  rw [startsWith, String.toList_append, List.isPrefixOf_iff_prefix]
  exact List.prefix_append _ _

theorem startsWith_rotationRef (id : String) :
    startsWith ("key:" ++ id) rotationRefPrefix = startsWith id profileKeyRotationPrefix := by
  rw [rotationRefPrefix, startsWith, startsWith, String.toList_append, String.toList_append]
  rfl

theorem ne_systemGatewayKeyId {id : String} (h : startsWith id profileKeyRotationPrefix = true) : id ≠ systemGatewayKeyId := by
  rintro rfl
  exact absurd h (by decide)

namespace Orderly

variable {current : GatewayKeyRecord}

theorem prepare (h : Orderly committed content) (hcurrent : content.keys.get? systemGatewayKeyId = some current)
    (uuid secret : String) : Orderly committed ((Write.saveKey (current.rotation (profileKeyRotationPrefix ++ uuid))).apply
      ((Write.saveSecret ("key:" ++ (profileKeyRotationPrefix ++ uuid)) secret).apply content)) := by
  have hstarts := startsWith_rotationId uuid
  generalize profileKeyRotationPrefix ++ uuid = id at hstarts
  obtain ⟨key, hkey, henabled, hsystem, hown, hsecret⟩ := h.system
  obtain rfl := Option.some.inj (hcurrent.symm.trans hkey)
  refine ⟨⟨current, ?_, henabled, hsystem, hown, ?_⟩, fun other => ?_, fun secretRef href hsome => ?_⟩
  · exact (RecordTable.get?_upsert _ _).trans ((if_neg (ne_systemGatewayKeyId hstarts)).trans hkey)
  · refine (getElem?_insert_ite _ _ _ _).trans ((if_neg fun heq => ?_).trans hsecret)
    rw [← heq, startsWith_rotationRef, hstarts] at hown
    exact nomatch hown
  · exact RecordTable.forall_get?_upsert (h.rotation other) fun hother _ => ⟨hsystem, congrArg ("key:" ++ ·) hother⟩
  · by_cases heq : "key:" ++ id = secretRef
    · exact ⟨current.rotation id, (RecordTable.get?_upsert _ _).trans (if_pos rfl), hstarts, heq⟩
    · have hvault : (content.vault.insert ("key:" ++ id) secret)[secretRef]? = content.vault[secretRef]? :=
        (getElem?_insert_ite _ _ _ _).trans (if_neg heq)
      obtain ⟨key, hget, hkeyPrefix, hkeyRef⟩ := h.secret secretRef href (hvault ▸ hsome)
      refine ⟨key, (RecordTable.get?_upsert _ _).trans ((if_neg fun hid : id = key.id => heq ?_).trans hget), hkeyPrefix, hkeyRef⟩
      rw [← hkeyRef, hid, (h.rotation _ _ hget hkeyPrefix).2]

theorem abort (h : Orderly committed content) {id : String} (hstarts : startsWith id profileKeyRotationPrefix = true)
    {key : GatewayKeyRecord} (hkey : content.keys.get? id = some key) :
    Orderly committed ((Write.deleteSecret key.secretRef).apply ((Write.deleteKey id).apply content)) := by
  obtain ⟨-, hkeyRef⟩ := h.rotation id key hkey hstarts
  obtain ⟨current, hcurrent, henabled, hsystem, hown, hsecret⟩ := h.system
  refine ⟨⟨current, ?_, henabled, hsystem, hown, ?_⟩, fun other => ?_, fun secretRef href hsome => ?_⟩
  · exact (RecordTable.get?_delete _ _).trans ((if_neg (ne_systemGatewayKeyId hstarts)).trans hcurrent)
  · refine (getElem?_erase_ite _ _ _).trans ((if_neg fun heq => ?_).trans hsecret)
    rw [← heq, hkeyRef, startsWith_rotationRef, hstarts] at hown
    exact nomatch hown
  · exact RecordTable.forall_get?_delete (h.rotation other) id
  · have hvault : ((Write.deleteSecret key.secretRef).apply ((Write.deleteKey id).apply content)).vault[secretRef]? =
        if key.secretRef = secretRef then none else content.vault[secretRef]? := getElem?_erase_ite _ _ _
    rw [hvault] at hsome
    split at hsome
    case isTrue => exact nomatch hsome
    case isFalse hne =>
      obtain ⟨other, hget, hotherPrefix, hotherRef⟩ := h.secret secretRef href hsome
      refine ⟨other, (RecordTable.get?_delete _ _).trans ((if_neg fun hid : id = other.id => hne ?_).trans hget), hotherPrefix, hotherRef⟩
      rw [hkeyRef, hid, ← (h.rotation _ _ hget hotherPrefix).2, hotherRef]

/-- What a commit leaves: the system key with the secret of the rotation, and no rotations. -/
theorem commit (h : Orderly committed content) (hcurrent : content.keys.get? systemGatewayKeyId = some current)
    {newSecret : String} (hmissing : Missing ((Write.saveSecret current.secretRef newSecret).apply content) content.profileRotations content')
    (hcleared : Cleared content.profileRotations content') :
    Orderly newSecret content' ∧ (∀ id, startsWith id profileKeyRotationPrefix = true → content'.keys.get? id = none) ∧
      ∀ secretRef : String, startsWith secretRef rotationRefPrefix = true → content'.vault[secretRef]? = none := by
  obtain ⟨key, hkey, henabled, hsystem, hown, -⟩ := h.system
  obtain rfl := Option.some.inj (hcurrent.symm.trans hkey)
  have hrotations : ∀ id key, content.keys.get? id = some key → startsWith id profileKeyRotationPrefix = true →
      (key, content.vault[key.secretRef]?) ∈ content.profileRotations := by
    intro id key hget hstarts
    obtain rfl : key.id = id := RecordTable.get?_id (t := content.keys) hget
    refine List.mem_map.mpr ⟨key, List.mem_filter.mpr ⟨RecordTable.mem_all.mpr hget, ?_⟩, rfl⟩
    rw [(h.rotation _ _ hget hstarts).1, hstarts]
    rfl
  have hofRotation : ∀ rotation ∈ content.profileRotations, startsWith rotation.1.id profileKeyRotationPrefix = true ∧
      startsWith rotation.1.secretRef rotationRefPrefix = true := by
    intro rotation hmem
    obtain ⟨key, hkey, rfl⟩ := List.mem_map.mp hmem
    obtain ⟨hall, hboth⟩ := List.mem_filter.mp hkey
    have hstarts := (Bool.and_eq_true_iff.mp hboth).2
    refine ⟨hstarts, ?_⟩
    rw [(h.rotation _ _ (RecordTable.mem_all.mp hall) hstarts).2, startsWith_rotationRef]
    exact hstarts
  have hnokey : ∀ id, startsWith id profileKeyRotationPrefix = true → content'.keys.get? id = none := by
    intro id hstarts
    refine (hmissing.keys id).elim (fun hsame => ?_) And.left
    cases hget : content.keys.get? id with
    | none => exact hsame.trans hget
    | some key =>
      obtain rfl : key.id = id := RecordTable.get?_id (t := content.keys) hget
      exact (hcleared _ (hrotations _ _ hget hstarts)).1
  have hnosecret : ∀ secretRef : String, startsWith secretRef rotationRefPrefix = true → content'.vault[secretRef]? = none := by
    intro secretRef href
    refine (hmissing.vault secretRef).elim (fun hsame => ?_) And.left
    rw [show ((Write.saveSecret current.secretRef newSecret).apply content).vault[secretRef]? = content.vault[secretRef]? from
      (getElem?_insert_ite _ _ _ _).trans (if_neg fun heq => by rw [heq, href] at hown; exact nomatch hown)] at hsame
    cases hget : content.vault[secretRef]? with
    | none => exact hsame.trans hget
    | some secret =>
      obtain ⟨key, hkey, hstarts, rfl⟩ := h.secret secretRef href (hget ▸ rfl)
      exact (hcleared _ (hrotations _ _ hkey hstarts)).2
  refine ⟨⟨⟨current, ?_, henabled, hsystem, hown, ?_⟩, fun id key hget hstarts => ?_, fun secretRef href hsome => ?_⟩, hnokey, hnosecret⟩
  · refine (hmissing.keys systemGatewayKeyId).elim (fun hsame => hsame.trans hcurrent) fun ⟨_, rotation, hmem, hid⟩ => ?_
    exact absurd hid (ne_systemGatewayKeyId (hofRotation rotation hmem).1)
  · refine (hmissing.vault current.secretRef).elim (fun hsame => hsame.trans ?_) fun ⟨_, rotation, hmem, href⟩ => ?_
    · exact (getElem?_insert_ite _ _ _ _).trans (if_pos rfl)
    · rw [← href, (hofRotation rotation hmem).2] at hown
      exact nomatch hown
  · rw [hnokey id hstarts] at hget
    exact nomatch hget
  · rw [hnosecret secretRef href] at hsome
    exact nomatch hsome

/-- The client's secret is accepted by what is built from the content. -/
theorem accepted (h : Orderly committed content) {now : String → Nat} {r : ServerRuntime}
    (hbuilt : (rebuild parts now).atOnce content = .ok (some r)) : Accepted (some r) committed := by
  obtain ⟨key, hkey, henabled, hsystem, -, hsecret⟩ := h.system
  have hid : key.id = systemGatewayKeyId := RecordTable.get?_id (t := content.keys) hkey
  refine (accepted_iff hbuilt).mpr ⟨(rebuild_isSome hbuilt).mp rfl, key, ⟨?_, henabled, ?_, ?_⟩, hsecret⟩
  · exact RecordTable.mem_all.mpr (hid ▸ hkey)
  · rw [isInternalGatewayKey, hsystem, hid]
    rfl
  · rw [hsecret]
    rfl

end Orderly

/-! ## One call -/

variable {run : RotationRun} {call : RotationCall}

theorem Attached.undone (h : Attached parts run) {s' : ServerState} (hundone : Undone parts run.server s') :
    Attached parts ⟨s', run.committed⟩ ∧ ∀ secret, Accepted s'.running secret ↔ Accepted run.server.running secret := by
  obtain ⟨horderly, now, hrunning⟩ := h
  obtain ⟨hcontent, hsame⟩ := hundone
  rcases hsame with hsame | ⟨now', hrunning'⟩
  · refine ⟨⟨hcontent ▸ horderly, now, ?_⟩, fun secret => by rw [hsame]⟩
    rw [hcontent, hsame]
    exact hrunning
  · refine ⟨⟨hcontent ▸ horderly, now', hcontent ▸ hrunning'⟩, fun secret => ?_⟩
    rw [accepted_iff hrunning', accepted_iff hrunning]

theorem single_outcomes (call : RotationCall) : Single call.outcomes := by
  unfold RotationCall.outcomes
  cases call.fault with
  | none => exact single_nil
  | some place => exact single_failingAt place

/-- What a call that succeeds has made of the content. -/
def Performed (parts : BuildParts) (s : ServerState) : RotationRequest → ServerState → Prop
  | .prepare uuid secret, s' => ∃ current, s.content.keys.get? systemGatewayKeyId = some current ∧
      Rebuilt parts ((s.write (.saveSecret ("key:" ++ (profileKeyRotationPrefix ++ uuid)) secret)).write
        (.saveKey (current.rotation (profileKeyRotationPrefix ++ uuid)))).content s'
  | .commit id, s' => ∃ current rotation newSecret content', s.content.keys.get? systemGatewayKeyId = some current ∧
      s.content.keys.get? id = some rotation ∧ s.content.vault[rotation.secretRef]? = some newSecret ∧
      Missing (s.write (.saveSecret current.secretRef newSecret)).content s.content.profileRotations content' ∧
      Cleared s.content.profileRotations content' ∧ Rebuilt parts content' s'
  | .abort id, s' => validateProfileRotationId id = true ∧ ∃ key, s.content.keys.get? id = some key ∧
      Rebuilt parts ((s.write (.deleteKey id)).write (.deleteSecret key.secretRef)).content s'

theorem meets_answer (h : Attached parts run) (hfresh : call.fresh run.server = true) :
    Meets (call.answer parts run.server) (fun _ w => Performed parts run.server call.request w.state)
      (FailsUndone parts run.server) fun _ => False := by
  obtain ⟨request, clock, again, fault⟩ := call
  unfold RotationCall.answer
  cases request with
  | prepare uuid secret =>
    have hkey : run.server.content.keys.get? (profileKeyRotationPrefix ++ uuid) = none := Option.isNone_iff_eq_none.mp hfresh
    have hsecret : run.server.content.vault["key:" ++ (profileKeyRotationPrefix ++ uuid)]? = none := by
      have hstarts := startsWith_rotationId uuid
      refine Option.not_isSome_iff_eq_none.mp fun hsome => ?_
      obtain ⟨key, hget, hkeyPrefix, href⟩ := h.orderly.secret _ ((startsWith_rotationRef _).trans hstarts) hsome
      rw [(h.orderly.rotation _ _ hget hkeyPrefix).2, String.append_right_inj] at href
      rw [href, hkey] at hget
      exact nomatch hget
    exact (meets_prepareProfileKeyRotation (single_outcomes _) hkey hsecret).bind fun _ _ hperformed => hperformed
  | commit id => exact meets_commitProfileKeyRotation (single_outcomes _)
  | abort id => exact meets_abortProfileKeyRotation (single_outcomes _)

theorem startsWith_of_valid {id : String} (h : validateProfileRotationId id = true) :
    startsWith id profileKeyRotationPrefix = true := by
  unfold validateProfileRotationId at h
  exact (Bool.and_eq_true_iff.mp (Bool.and_eq_true_iff.mp h).1).2

/-- A call that succeeds leaves the client attached, and one that commits gives it the secret of the rotation. -/
theorem step_ok (h : Attached parts run) (hok : (call.answer parts run.server).1 = .ok ())
    (hperformed : Performed parts run.server call.request (call.answer parts run.server).2.state) :
    Attached parts (run.step parts call) ∧ KeepsClient parts run call := by
  obtain ⟨request, clock, again, fault⟩ := call
  obtain ⟨horderly, -⟩ := h
  have hfailed : ∀ e, (RotationCall.answer parts ⟨request, clock, again, fault⟩ run.server).1 ≠ .error e := by
    rw [hok]
    exact nofun
  cases request with
  | prepare uuid secret =>
    obtain ⟨current, hcurrent, hcontent, hrunning⟩ := hperformed
    refine ⟨⟨?_, hcontent ▸ hrunning⟩, nofun, nofun, fun e he => absurd he (hfailed e)⟩
    exact (congrArg (Orderly run.committed) hcontent).mpr (horderly.prepare hcurrent uuid secret)
  | commit id =>
    obtain ⟨current, rotation, newSecret, content', hcurrent, hrotation, hsecret, hmissing, hcleared, hcontent, hrunning⟩ := hperformed
    obtain ⟨horderly', hnokey, hnosecret⟩ := horderly.commit hcurrent hmissing hcleared
    have hrotationSecret : run.server.content.rotationSecret id = some newSecret := by
      rw [ServerContent.rotationSecret, hrotation]
      exact hsecret
    have hcommitted : (run.step parts ⟨.commit id, clock, again, fault⟩).committed = newSecret := by
      unfold RotationRun.step
      dsimp only
      rw [hok]
      exact congrArg (·.getD run.committed) hrotationSecret
    subst hcontent
    refine ⟨⟨hcommitted ▸ horderly', hrunning⟩, ?_, ?_, fun e he => absurd he (hfailed e)⟩
    · rintro _ heq -
      obtain rfl := RotationRequest.commit.inj heq
      obtain ⟨key, hkey, -, -, -, hsystem⟩ := horderly'.system
      exact ⟨key, newSecret, hkey, hrotationSecret, hsystem⟩
    · exact fun _ _ _ => ⟨hnokey, hnosecret⟩
  | abort id =>
    obtain ⟨hvalid, key, hkey, hcontent, hrunning⟩ := hperformed
    refine ⟨⟨?_, hcontent ▸ hrunning⟩, nofun, nofun, fun e he => absurd he (hfailed e)⟩
    exact (congrArg (Orderly run.committed) hcontent).mpr (horderly.abort (startsWith_of_valid hvalid) hkey)

theorem step_keeps (h : Attached parts run) (hallowed : AllowedCall parts run call) :
    Attached parts (run.step parts call) ∧ KeepsClient parts run call := by
  obtain ⟨hfresh, hrestored⟩ := hallowed
  have hmeets := meets_answer h hfresh
  rcases hanswer : call.answer parts run.server with ⟨_ | e | _, w⟩
  · rw [hanswer] at hmeets
    refine step_ok h (congrArg Prod.fst hanswer) ?_
    rw [hanswer]
    exact hmeets
  · rw [hanswer] at hmeets
    have hundone : Undone parts run.server w.state := by
      unfold RotationCall.restored at hrestored
      rw [hanswer] at hrestored
      exact hmeets hrestored
    obtain ⟨hattached, haccepted⟩ := h.undone hundone
    have hserver : (run.step parts call).server = w.state := congrArg (fun answer => answer.2.state) hanswer
    have hcommitted : (run.step parts call).committed = run.committed := by
      unfold RotationRun.step
      dsimp only
      rw [hanswer]
      cases call.request <;> rfl
    have hnot : (call.answer parts run.server).1 ≠ .ok () := by
      rw [hanswer]
      exact nofun
    refine ⟨?_, fun _ _ hok => absurd hok hnot, fun _ _ hok => absurd hok hnot, fun _ _ => ?_⟩
    · have heq : run.step parts call = ⟨w.state, run.committed⟩ := by rw [← hserver, ← hcommitted]
      exact heq ▸ hattached
    · rw [hserver]
      exact ⟨congrArg ServerContent.keys hundone.1, congrArg ServerContent.vault hundone.1, haccepted⟩
  · rw [hanswer] at hmeets
    exact hmeets.elim

end

/-! ## The start -/

/-- The system key as `ensure_system_gateway_key` wants it. -/
def ServerContent.systemKey (content : ServerContent) : GatewayKeyRecord :=
  let existing := content.keys.get? systemGatewayKeyId
  let record := existing.getD { id := systemGatewayKeyId, secretRef := "key:" ++ systemGatewayKeyId }
  { record with enabled := true, system := true }

/-- `ensure_system_gateway_key`, with the key that it generates. -/
def ensureSystemGatewayKey (generated : String) (content : ServerContent) : ServerContent :=
  let changed := (content.keys.get? systemGatewayKeyId).all fun key => !key.enabled || !key.system
  let record := content.systemKey
  let content := if (content.vault[record.secretRef]?).isNone then (Write.saveSecret record.secretRef generated).apply content
    else content
  if changed then (Write.saveKey record).apply content else content

/-- The secret of the system key, which is there or generated. -/
def ServerContent.systemSecret (generated : String) (content : ServerContent) : String :=
  content.vault[content.systemKey.secretRef]?.getD generated

theorem ensured_vault (generated : String) (content : ServerContent) (secretRef : String) :
    (ensureSystemGatewayKey generated content).vault[secretRef]? =
      if content.systemKey.secretRef = secretRef then some (content.systemSecret generated) else content.vault[secretRef]? := by
  have hwrite : ∀ (changed : Bool) (record : GatewayKeyRecord) (content : ServerContent),
      (if changed then (Write.saveKey record).apply content else content).vault = content.vault := by
    rintro (_ | _) _ _ <;> rfl
  unfold ensureSystemGatewayKey ServerContent.systemSecret
  dsimp only
  rw [hwrite]
  cases hsecret : content.vault[content.systemKey.secretRef]? with
  | none => exact getElem?_insert_ite _ _ _ _
  | some secret =>
    rw [if_neg nofun]
    split
    case isTrue heq => exact heq ▸ hsecret
    case isFalse => rfl

theorem ensured_keys (generated : String) (content : ServerContent) (id : String) :
    (ensureSystemGatewayKey generated content).keys.get? id =
      if systemGatewayKeyId = id then some content.systemKey else content.keys.get? id := by
  have hwrite : ∀ (missing : Bool) (secretRef : String) (record : GatewayKeyRecord),
      ((Write.saveKey record).apply (if missing then (Write.saveSecret secretRef generated).apply content else content)).keys =
        content.keys.upsert record := by
    rintro (_ | _) _ _ <;> rfl
  have hsame : ∀ (missing : Bool) (secretRef : String),
      (if missing then (Write.saveSecret secretRef generated).apply content else content).keys = content.keys := by
    rintro (_ | _) _ <;> rfl
  have hid : content.systemKey.id = systemGatewayKeyId := by
    unfold ServerContent.systemKey
    dsimp only
    cases hkey : content.keys.get? systemGatewayKeyId with
    | none => rfl
    | some key => exact RecordTable.get?_id (t := content.keys) hkey
  unfold ensureSystemGatewayKey
  dsimp only
  split
  case isTrue => rw [hwrite, RecordTable.get?_upsert, hid]
  case isFalse hunchanged =>
    rw [hsame]
    split
    case isFalse => rfl
    case isTrue heq =>
      -- The key that is there is enabled and a system key already.
      cases hkey : content.keys.get? systemGatewayKeyId with
      | none => exact absurd (by rw [hkey]; rfl) hunchanged
      | some key =>
        rw [hkey, Option.all_some, Bool.or_eq_true, Bool.not_eq_true', Bool.not_eq_true', not_or, Bool.not_eq_false,
          Bool.not_eq_false] at hunchanged
        obtain ⟨keyId, enabled, system, secretRef⟩ := key
        obtain ⟨rfl, rfl⟩ := hunchanged
        rw [← heq, hkey, ServerContent.systemKey, hkey]
        rfl

/-- A server without rotations starts in order. -/
theorem orderly_ensureSystemGatewayKey (content : ServerContent) (generated : String)
    (hkeys : ∀ id, startsWith id profileKeyRotationPrefix = true → content.keys.get? id = none)
    (hsecrets : ∀ secretRef : String, startsWith secretRef rotationRefPrefix = true → content.vault[secretRef]? = none)
    (hsystem : startsWith content.systemKey.secretRef rotationRefPrefix = false) :
    Orderly (content.systemSecret generated) (ensureSystemGatewayKey generated content) := by
  have hvault := ensured_vault generated content
  have hget := ensured_keys generated content
  refine ⟨⟨content.systemKey, ?_, rfl, rfl, hsystem, ?_⟩, fun id key hkey hstarts => ?_, fun secretRef href hsome => ?_⟩
  · rw [hget, if_pos rfl]
  · rw [hvault, if_pos rfl]
  · rw [hget, if_neg (ne_systemGatewayKeyId hstarts).symm, hkeys id hstarts] at hkey
    exact nomatch hkey
  · rw [hvault, if_neg fun heq => ?_, hsecrets secretRef href] at hsome
    · exact nomatch hsome
    · rw [heq, href] at hsystem
      exact nomatch hsystem

/-! ## The client -/

/-- In every sequence of calls in which at most one write of each fails and the ways back succeed, a commit gives its
secret to the system key and leaves no rotation, a call that fails changes neither the keys nor what is accepted, and
the gateway accepts the secret of the last commit. -/
theorem profile_key_rotation_keeps_client (parts : BuildParts) {start : RotationRun} (hstart : Attached parts start)
    {calls : List RotationCall} (hcalls : StepsMeet (RotationRun.step parts) (AllowedCall parts) start calls) :
    StepsMeet (RotationRun.step parts) (KeepsClient parts) start calls ∧
      ∀ before after, calls = before ++ after → ∀ r ∈ (run (RotationRun.step parts) start before).server.running,
        Accepted (some r) (run (RotationRun.step parts) start before).committed := by
  refine ⟨?_, fun before after heq r hr => ?_⟩
  · exact StepsMeet.of_invariant (I := Attached parts) (fun run call hrun hallowed => (step_keeps hrun hallowed).1)
      (fun run call hrun hallowed => (step_keeps hrun hallowed).2) hstart hcalls
  · rw [heq, StepsMeet.append] at hcalls
    obtain ⟨horderly, now, hrunning⟩ := run_invariant (I := Attached parts)
      (fun run call hrun hallowed => (step_keeps hrun hallowed).1) hstart hcalls.1
    rw [Option.mem_def.mp hr] at hrunning
    exact horderly.accepted hrunning

/-- An account in the pool, before start-up makes the system key. -/
def newContent : ServerContent :=
  { sampleContent with keys := .empty, vault := (∅ : Table String String).insert "account:account_1" "credential" }

def startedServer : ServerState where
  content := ensureSystemGatewayKey "secret" newContent
  running :=
    match (rebuild sampleParts fun _ => 0).atOnce (ensureSystemGatewayKey "secret" newContent) with
    | .ok installed => installed
    | .error _ => none

theorem startedServer_attached : Attached sampleParts ⟨startedServer, "secret"⟩ := by
  refine ⟨orderly_ensureSystemGatewayKey newContent "secret" (fun id _ => ?_) (fun secretRef href => ?_) (by decide +kernel),
    fun _ => 0, ?_⟩
  · exact ExtTreeMap.getElem?_empty
  · refine (getElem?_insert_ite _ _ _ _).trans ((if_neg fun heq => ?_).trans ExtTreeMap.getElem?_empty)
    exact absurd (heq ▸ href) (by decide)
  · have hok : ((rebuild sampleParts fun _ => 0).atOnce (ensureSystemGatewayKey "secret" newContent)).isOk = true := by decide +kernel
    unfold startedServer
    dsimp only
    cases hrebuild : (rebuild sampleParts fun _ => 0).atOnce (ensureSystemGatewayKey "secret" newContent) with
    | ok installed => rfl
    | error e =>
      rw [hrebuild] at hok
      exact nomatch hok

/-- The second of two rotations is committed, once the store has failed to delete the first. -/
def sampleRotations : List RotationCall :=
  [{ request := .prepare "1" "first" }, { request := .prepare "2" "second" },
   { request := .commit "key_profile_rotation_2", fault := some 2 }, { request := .commit "key_profile_rotation_2" },
   { request := .abort "key_profile_rotation_1" }]

theorem profile_key_rotation_sample :
    (run (RotationRun.step sampleParts) ⟨startedServer, "secret"⟩ sampleRotations).committed = "second" ∧
      StepsMeet (RotationRun.step sampleParts) (KeepsClient sampleParts) ⟨startedServer, "secret"⟩ sampleRotations := by
  refine ⟨by decide +kernel, (profile_key_rotation_keeps_client sampleParts startedServer_attached ?_).1⟩
  unfold AllowedCall
  decide +kernel

end Zenith.Server
