import Zenith.Secrets.VaultCrashes

/-!
# The vault of the server

`store/vault.rs` of the server, the vault of the desktop with fewer checks: the temporary file is written at once, and
its length is looked at only when it is read. After the new file is in place a backup that cannot be removed is an
error, and memory goes back to what it was.

`server_vault_survives` says when the next start finds what the process has.
-/

namespace Zenith.ServerVault

open Std Zenith.Faults Zenith.Runs Zenith.Tables Zenith.VaultStore

def magic : List UInt8 := [0x5A, 0x52, 0x56, 0x31]

def maxSecretBytes : Nat := 1024 * 1024

def maxVaultBytes : Nat := 32 * 1024 * 1024

def validateRef (value : String) : Except VaultError Unit :=
  if value = "" ∨ 256 < (Bytes.utf8 value).length ∨ !value.toList.all isRefChar then .error .reference else .ok ()

/-! ## The file -/

/-- What comes before the new file is renamed into place. -/
def prepare (bytes : List UInt8) : VaultOp Unit := do
  writeAll bytes
  clearBackup
  setPathAside

def atomicReplace (bytes : List UInt8) : VaultOp Unit := do
  prepare bytes
  match ← install.attempt with
  | .error e => do
    ignore removeTemporary
    putBackIfThere
    Op.throw e
  | .ok () => clearBackup

section
variable (codec : Codec) (key : Key)

def decryptFile (bytes : List UInt8) : Except VaultError VaultData :=
  if maxVaultBytes < bytes.length then .error .unsafeFile
  else if bytes.length ≤ magic.length + nonceBytes ∨ bytes.take magic.length ≠ magic then .error .header
  else
    match codec.decrypt key ((bytes.drop magic.length).take nonceBytes) (bytes.drop (magic.length + nonceBytes)) with
    | none => .error .decryption
    | some plaintext =>
      match codec.fromSlice plaintext with
      | none => .error .payload
      | some data => .ok data

/-- What a start makes of the file, where there is one. -/
def readFile : Option (List UInt8) → Except VaultError VaultData
  | some bytes => decryptFile codec key bytes
  | none => .ok ∅

/-- `Vault::open` -/
def openVault : VaultOp Unit := do
  recoverBackup
  let data ← Op.ofExcept (readFile codec key (← Op.get).disk.path)
  setData fun _ => data

def sealed (nonce : Nonce) (data : VaultData) : Except VaultError (List UInt8) :=
  match codec.encrypt key nonce (codec.toVec data) with
  | none => .error .encryption
  | some ciphertext => .ok (magic ++ nonce.toList ++ ciphertext)

def persist (nonce : Nonce) : VaultOp Unit := do
  let bytes ← Op.ofExcept (sealed codec key nonce (← Op.get).data)
  atomicReplace bytes

def persistOr (nonce : Nonce) (undo : VaultData → VaultData) : VaultOp Unit := do
  match ← (persist codec key nonce).attempt with
  | .error e => do
    setData undo
    Op.throw e
  | .ok () => return ()

def checkSave (secretRef value : String) : Except VaultError Unit := do
  validateRef secretRef
  if value = "" ∨ maxSecretBytes < (Bytes.utf8 value).length then .error .secretSize else .ok ()

def save (nonce : Nonce) (secretRef value : String) : VaultOp Unit := do
  Op.ofExcept (checkSave secretRef value)
  let data := (← Op.get).data
  setData fun data => data.insert secretRef value
  persistOr codec key nonce (putBackValue secretRef data[secretRef]?)

/-- Whether there was a value. -/
def delete (nonce : Nonce) (secretRef : String) : VaultOp Bool := do
  Op.ofExcept (validateRef secretRef)
  let data := (← Op.get).data
  match data[secretRef]? with
  | none => return false
  | some previous => do
    setData fun data => data.erase secretRef
    persistOr codec key nonce (putBackValue secretRef (some previous))
    return true

def mutate (nonce : Nonce) : Mutation → VaultOp Unit
  | .save secretRef value => save codec key nonce secretRef value
  | .delete secretRef => do
    let _ ← delete codec key nonce secretRef

end

/-! ## Replacing the file -/

/-- The writes before the new file is renamed into place. -/
def writesBefore (disk : Disk) : Nat := 1 + (if disk.backup.isSome then 1 else 0) + if disk.path.isSome then 1 else 0

/-- The desktop's vault creates its temporary file and syncs it in two writes more. -/
abbrev padded (outcomes : List Outcome) : List Outcome := .done :: .done :: outcomes

theorem preparations_eq (disk : Disk) : preparations disk = writesBefore disk + 2 := by
  unfold preparations writesBefore
  omega

variable {outcomes : List Outcome}

theorem goes_padded {n : Nat} : Goes (n + 2) (padded outcomes) ↔ Goes n outcomes := by
  unfold Goes
  simp only [padded, List.take_succ_cons, List.mem_cons, forall_eq_or_imp, true_and]

theorem goes_preparations {disk : Disk} :
    Goes (preparations disk) (padded outcomes) ↔ Goes (writesBefore disk) outcomes := by
  rw [preparations_eq]
  exact goes_padded

theorem goes_installed {disk : Disk} :
    Goes (preparations disk + 1) (padded outcomes) ↔ Goes (writesBefore disk + 1) outcomes := by
  rw [preparations_eq]
  exact goes_padded (n := writesBefore disk + 1)

theorem drop_preparations (disk : Disk) (outcomes : List Outcome) :
    (padded outcomes).drop (preparations disk) = outcomes.drop (writesBefore disk) := by
  rw [preparations_eq]
  rfl

/-- The new file is in place, and the backup cannot be removed. -/
def RemovalFails (disk : Disk) (outcomes : List Outcome) : Prop :=
  disk.path ≠ none ∧ (outcomes.drop (writesBefore disk + 1)).head? = some .failed

theorem advances_prepare (bytes : List UInt8) (vault : Vault) : Advances (prepare bytes) vault (writesBefore vault.disk)
    ⟨vault.data, ⟨none, vault.disk.path, some bytes⟩⟩ := by
  have hclear : Same ⟨vault.data, { vault.disk with temporary := some bytes }⟩
        ⟨vault.data, { vault.disk with backup := none, temporary := some bytes }⟩ ∨
      (if vault.disk.path.isSome then 1 else 0) = 0 := by
    rcases vault with ⟨data, path | file, backup, temporary⟩
    · exact .inr rfl
    · exact .inl ⟨rfl, rfl⟩
  have hend := (advances_clearBackup ⟨vault.data, { vault.disk with temporary := some bytes }⟩).bind
    (advances_setPathAside ⟨vault.data, { vault.disk with backup := none, temporary := some bytes }⟩ rfl) hclear
  have hall := (advances_writeDisk (fun disk => { disk with temporary := some bytes }) vault).bind hend (.inl ⟨rfl, rfl⟩)
  have hcount : 1 + ((if vault.disk.backup.isSome then 1 else 0) + if vault.disk.path.isSome then 1 else 0) = writesBefore vault.disk := by
    unfold writesBefore
    omega
  rw [← hcount]
  exact hall

/-- The new file is in place, with the entries that were written. -/
structure Installed (vault : Vault) (outcomes : List Outcome) (bytes : List UInt8) (w : World Vault) : Prop where
  goes : Goes (writesBefore vault.disk + 1) outcomes
  data : w.state.data = vault.data
  path : w.state.disk.path = some bytes

/-- The file is replaced, or something remains of the former one; and the backup may stay, which is an error. -/
theorem meets_atomicReplace (bytes : List UInt8) (vault : Vault) (outcomes : List Outcome) :
    Meets (atomicReplace bytes ⟨vault, outcomes⟩)
      (fun _ w => Installed vault outcomes bytes w ∧ ¬RemovalFails vault.disk outcomes)
      (fun _ w => (w.state.data = vault.data ∧ Remains vault (padded outcomes) false w.state) ∨
        Installed vault outcomes bytes w ∧ RemovalFails vault.disk outcomes)
      (fun w => (Installed vault outcomes bytes w ∧ ¬RemovalFails vault.disk outcomes) ∨ Remains vault (padded outcomes) true w.state) := by
  unfold atomicReplace
  rw [meets_bind]
  refine (advances_prepare bytes vault outcomes).mono ?_ ?_ ?_
  case refine_2 =>
    rintro _ w ⟨hstop, hsame⟩
    exact .inl ⟨hsame.1, remains_of_prepare false (fun h => hstop (goes_preparations.mp h)) hsame⟩
  case refine_3 =>
    rintro w ⟨hstop, hsame⟩
    exact .inr (remains_of_prepare true (fun h => hstop (goes_preparations.mp h)) hsame)
  rintro _ _ ⟨hgoes, rfl⟩
  have hsurvivor : survivor vault.disk (padded outcomes) = vault.disk.path := if_pos (goes_preparations.mpr hgoes)
  rw [meets_bind, meets_attempt]
  unfold install writeDisk
  refine meets_write_goes (fun hdone => ?_) (fun hstop hfailed => ?_) fun hstop hcrashed => ?_
  · have hall := (goes_add (writesBefore vault.disk) 1 outcomes).mpr ⟨hgoes, hdone⟩
    have hrest : (outcomes.drop (writesBefore vault.disk)).drop 1 = outcomes.drop (writesBefore vault.disk + 1) := List.drop_drop
    rw [hrest]
    dsimp only
    cases hpath : vault.disk.path with
    | none =>
      -- There was no file, so there is no backup to remove.
      exact ⟨⟨hall, rfl, rfl⟩, fun hfails => hfails.1 hpath⟩
    | some old =>
      show Meets (removeBackup _) _ _ _
      unfold removeBackup writeDisk
      refine meets_write_goes (fun hdone' => ?_) (fun _ hfailed' => ?_) fun _ hcrashed' => ?_
      · refine ⟨⟨hall, rfl, rfl⟩, fun hfails => ?_⟩
        rw [head?_drop_one hfails.2] at hdone'
        exact absurd (hdone' .failed List.mem_cons_self) nofun
      · exact .inr ⟨⟨hall, rfl, rfl⟩, by rw [hpath]; exact nofun, hfailed'⟩
      · refine .inl ⟨⟨hall, rfl, rfl⟩, fun hfails => ?_⟩
        rw [hfails.2] at hcrashed'
        exact absurd (Option.some.inj hcrashed') nofun
  · have hnot : ¬Goes (preparations vault.disk + 1) (padded outcomes) :=
      fun h => hstop ((goes_add _ _ _).mp (goes_installed.mp h)).2
    have hdrop := head?_drop_one hfailed
    dsimp only
    rw [meets_bind]
    have hbare : ∀ {crashes : Bool}, (crashes = true ↔ ((outcomes.drop (writesBefore vault.disk)).drop 1).head? = some .crashed) →
        (crashes = true ↔ .crashed ∈ ((padded outcomes).drop (preparations vault.disk)).take 2) := by
      intro crashes hcrashes
      rw [hcrashes, drop_preparations, hdrop]
      cases (outcomes.drop (writesBefore vault.disk)).drop 1 with
      | nil => decide
      | cons outcome rest => cases outcome <;> simp
    refine meets_ignore_writeDisk (fun vault' hvault' hhead => ?_) fun hhead => .inr ⟨hnot, ?_, fun _ _ => ?_⟩
    · have hpath' : vault'.data = vault.data ∧ vault'.disk.path = none ∧ vault'.disk.backup = vault.disk.path := by
        obtain rfl | rfl := hvault' <;> exact ⟨rfl, rfl, rfl⟩
      obtain ⟨data', path', backup', temporary'⟩ := vault'
      obtain ⟨rfl, rfl, rfl⟩ := hpath'
      rw [meets_bind]
      unfold putBackIfThere
      rw [meets_bind, meets_get]
      dsimp only
      cases hpath : vault.disk.path with
      | none =>
        refine .inl ⟨rfl, hnot, ?_, fun _ _ => hbare ⟨nofun, fun hcrash => absurd hcrash hhead⟩⟩
        rw [hsurvivor, hpath]
        rfl
      | some old =>
        have hthere : vault.disk.path = none → False := fun hnone => nomatch hpath.symm.trans hnone
        refine meets_ignore_writeDisk (fun vault' hvault' _ => .inl ⟨?_, hnot, ?_, fun _ h => (hthere h).elim⟩)
          fun _ => .inr ⟨hnot, ?_, fun _ h => (hthere h).elim⟩
        · obtain rfl | rfl := hvault' <;> rfl
        · rw [hsurvivor, hpath]
          obtain rfl | rfl := hvault' <;> rfl
        · rw [hsurvivor, hpath]
          rfl
    · rw [hsurvivor]
      rfl
    · exact hbare ⟨fun _ => hhead, fun _ => rfl⟩
  · have hnot : ¬Goes (preparations vault.disk + 1) (padded outcomes) :=
      fun h => hstop ((goes_add _ _ _).mp (goes_installed.mp h)).2
    refine .inr ⟨hnot, by rw [hsurvivor]; rfl, fun _ _ => ⟨fun _ => ?_, fun _ => rfl⟩⟩
    rw [drop_preparations, head?_drop_one hcrashed]
    exact List.mem_cons_self

/-! ## Opening the vault -/

section
variable {codec : Codec} {key : Key}

variable (codec key) in
/-- An undisturbed start succeeds with these entries. -/
def Opens (disk : Disk) (data : VaultData) : Prop :=
  Meets (openVault codec key ⟨⟨∅, disk⟩, []⟩) (fun _ w => w.state.data = data) (fun _ _ => False) fun _ => False

theorem meets_openVault (vault : Vault) (outcomes : List Outcome) :
    Meets (openVault codec key ⟨vault, outcomes⟩)
      (fun _ w => current w.state.disk = current vault.disk ∧ readFile codec key (current vault.disk) = .ok w.state.data)
      (fun _ w => current w.state.disk = current vault.disk ∧
        (outcomes = [] → ∀ data, readFile codec key (current vault.disk) ≠ .ok data))
      (fun w => current w.state.disk = current vault.disk ∧ outcomes ≠ []) := by
  have hcurrent : current { vault.disk with
      path := current vault.disk, backup := if vault.disk.path.isNone then none else vault.disk.backup } =
        current vault.disk := by
    rcases vault with ⟨data, _ | bytes, _ | old, temporary⟩ <;> rfl
  have hnil : ∀ n, ¬Goes n outcomes → outcomes ≠ [] := by
    rintro n hstop rfl
    exact hstop fun _ h => by rw [List.take_nil] at h; exact nomatch h
  unfold openVault
  rw [meets_bind]
  refine (advances_recoverBackup vault outcomes).mono ?_ ?_ ?_
  · rintro _ _ ⟨-, rfl⟩
    rw [meets_bind, meets_get]
    dsimp only
    rw [meets_bind]
    cases hread : readFile codec key (current vault.disk) with
    | error e => exact ⟨hcurrent, fun _ data => nofun⟩
    | ok data => exact ⟨hcurrent, rfl⟩
  · rintro _ w ⟨hstop, hsame⟩
    exact ⟨hsame.2, fun h => absurd h (hnil _ hstop)⟩
  · rintro w ⟨hstop, hsame⟩
    exact ⟨hsame.2, hnil _ hstop⟩

variable {data : VaultData}

theorem opens_iff {disk : Disk} :
    Opens codec key disk data ↔ readFile codec key (current disk) = .ok data := by
  constructor
  · intro h
    obtain ⟨_, w, _, ⟨-, hread⟩, rfl⟩ | ⟨_, _, _, _, hfalse⟩ := (Meets.and (meets_openVault ⟨∅, disk⟩ []) h).calm nofun
    · exact hread
    · exact hfalse.elim
  · intro h
    refine (meets_openVault ⟨∅, disk⟩ []).mono ?_ ?_ ?_
    · rintro _ w ⟨-, hread⟩
      exact Except.ok.inj (hread.symm.trans h)
    · rintro _ w ⟨-, hnone⟩
      exact hnone rfl data h
    · rintro w ⟨-, hne⟩
      exact hne rfl

variable {nonce : Nonce}

/-- A sealed file is read back, unless it is too long. -/
theorem read_sealed (hcodec : codec.Correct) {bytes : List UInt8}
    (h : sealed codec key nonce data = .ok bytes) (data' : VaultData) :
    readFile codec key (some bytes) = .ok data' ↔ data' = data ∧ bytes.length ≤ maxVaultBytes := by
  unfold sealed at h
  cases hencrypt : codec.encrypt key nonce (codec.toVec data) with
  | none =>
    rw [hencrypt] at h
    exact nomatch h
  | some ciphertext =>
    rw [hencrypt] at h
    obtain rfl := Except.ok.inj h
    have hlength : magic.length + nonceBytes < (magic ++ nonce.toList ++ ciphertext).length := by
      rw [List.length_append, List.length_append, Vector.length_toList, hcodec.tagged _ _ _ _ hencrypt]
      exact Nat.lt_add_of_pos_right (Nat.add_pos_right _ (by decide))
    have hheader : (magic ++ nonce.toList ++ ciphertext).take magic.length = magic := by
      rw [List.append_assoc, List.take_left]
    have hnonce : ((magic ++ nonce.toList ++ ciphertext).drop magic.length).take nonceBytes = nonce.toList := by
      rw [List.append_assoc, List.drop_left]
      exact List.take_left' Vector.length_toList
    have hrest : (magic ++ nonce.toList ++ ciphertext).drop (magic.length + nonceBytes) = ciphertext := by
      refine List.drop_left' ?_
      rw [List.length_append, Vector.length_toList]
    unfold readFile decryptFile
    dsimp only
    split
    case isTrue hlong => exact ⟨nofun, fun hfits => absurd hfits.2 (Nat.not_le.mpr hlong)⟩
    case isFalse hfits =>
      rw [if_neg (not_or.mpr ⟨Nat.not_le.mpr hlength, not_not.mpr hheader⟩), hnonce, hrest, hcodec.decrypts _ _ _ _ hencrypt]
      dsimp only
      rw [hcodec.reads]
      exact ⟨fun heq => ⟨(Except.ok.inj heq).symm, Nat.le_of_not_lt hfits⟩, fun heq => congrArg Except.ok heq.1.symm⟩

/-! ## Mutations -/

/-- The mutation passes its checks and there is something to write. -/
def persists : Mutation → VaultData → Bool
  | .save secretRef value, _ => (checkSave secretRef value).isOk
  | .delete secretRef, data => (validateRef secretRef).isOk && data.contains secretRef

variable (codec key) in
/-- The file that the mutation writes. -/
def file (mutation : Mutation) (nonce : Nonce) (data : VaultData) : Option (List UInt8) :=
  if persists mutation data then (sealed codec key nonce (mutation.apply data)).toOption else none

theorem file_eq_some {mutation : Mutation} {bytes : List UInt8}
    (h : file codec key mutation nonce data = some bytes) :
    persists mutation data = true ∧ sealed codec key nonce (mutation.apply data) = .ok bytes := by
  unfold file at h
  split at h
  case isFalse => exact nomatch h
  case isTrue hpersists =>
    refine ⟨hpersists, ?_⟩
    cases hsealed : sealed codec key nonce (mutation.apply data) with
    | error e =>
      rw [hsealed] at h
      exact nomatch h
    | ok bytes' =>
      rw [hsealed] at h
      exact congrArg Except.ok (Option.some.inj h)

theorem file_eq_none {mutation : Mutation} (h : file codec key mutation nonce data = none)
    (hpersists : persists mutation data = true) : ∃ e, sealed codec key nonce (mutation.apply data) = .error e := by
  unfold file at h
  rw [if_pos hpersists] at h
  cases hsealed : sealed codec key nonce (mutation.apply data) with
  | error e => exact ⟨e, rfl⟩
  | ok bytes =>
    rw [hsealed] at h
    exact nomatch h

section
variable {Q : Unit → World Vault → Prop} {E : VaultError → World Vault → Prop} {C : World Vault → Prop}
  {nonce : Nonce} {data data' : VaultData} {disk : Disk} {outcomes : List Outcome} {undo : VaultData → VaultData}

theorem meets_persistOr_error {e : VaultError} (hseal : sealed codec key nonce data' = .error e) (hundo : undo data' = data)
    (hE : E e ⟨⟨data, disk⟩, outcomes⟩) :
    Meets (persistOr codec key nonce undo ⟨⟨data', disk⟩, outcomes⟩) Q E C := by
  unfold persistOr persist
  rw [meets_bind, meets_attempt, meets_bind, meets_get]
  dsimp only
  rw [hseal, meets_bind]
  show E e ⟨⟨undo data', disk⟩, outcomes⟩
  rw [hundo]
  exact hE

/-- What a mutation from `vault` comes to. `file` is where the new file is in place, and its entries are in memory or
the former ones. -/
structure Replaces (vault : Vault) (outcomes : List Outcome) (data' : VaultData) (bytes : List UInt8)
    (Q : Unit → World Vault → Prop) (E : VaultError → World Vault → Prop) (C : World Vault → Prop) : Prop where
  done : Goes (writesBefore vault.disk + 1) outcomes → ¬RemovalFails vault.disk outcomes → ∀ w : World Vault,
    w.state.data = data' → w.state.disk.path = some bytes → Q () w
  failed : ∀ e, ∀ w : World Vault, w.state.data = vault.data → Remains vault (padded outcomes) false w.state → E e w
  late : Goes (writesBefore vault.disk + 1) outcomes → RemovalFails vault.disk outcomes → ∀ e, ∀ w : World Vault,
    w.state.data = vault.data → w.state.disk.path = some bytes → E e w
  finished : Goes (writesBefore vault.disk + 1) outcomes → ¬RemovalFails vault.disk outcomes → ∀ w : World Vault,
    w.state.disk.path = some bytes → C w
  crashed : ∀ w : World Vault, Remains vault (padded outcomes) true w.state → C w

theorem meets_persistOr {bytes : List UInt8} (hseal : sealed codec key nonce data' = .ok bytes) (hundo : undo data' = data)
    (h : Replaces ⟨data, disk⟩ outcomes data' bytes Q E C) :
    Meets (persistOr codec key nonce undo ⟨⟨data', disk⟩, outcomes⟩) Q E C := by
  unfold persistOr persist
  rw [meets_bind, meets_attempt, meets_bind, meets_get]
  dsimp only
  rw [hseal, meets_bind]
  refine (meets_atomicReplace bytes ⟨data', disk⟩ outcomes).mono ?_ ?_ ?_
  · rintro _ w ⟨hinstalled, hremoved⟩
    exact h.done hinstalled.goes hremoved w hinstalled.data hinstalled.path
  · rintro e w (⟨hdata, hremains⟩ | ⟨hinstalled, hremoval⟩)
    · refine h.failed e _ ?_ ⟨hremains.stops, hremains.survivor, hremains.bare⟩
      show undo w.state.data = data
      rw [hdata]
      exact hundo
    · refine h.late hinstalled.goes hremoval e _ ?_ hinstalled.path
      show undo w.state.data = data
      rw [hinstalled.data]
      exact hundo
  · rintro w (⟨hinstalled, hremoved⟩ | hremains)
    · exact h.finished hinstalled.goes hremoved w hinstalled.path
    · exact h.crashed w ⟨hremains.stops, hremains.survivor, hremains.bare⟩

/-- A mutation is its checks, and then it persists what it makes of the entries. -/
theorem meets_mutate_of {mutation : Mutation}
    (hidle : persists mutation data = false → mutation.apply data = data → Q () ⟨⟨data, disk⟩, outcomes⟩)
    (hrefused : ∀ e, persists mutation data = false → E e ⟨⟨data, disk⟩, outcomes⟩)
    (hpersist : persists mutation data = true → ∀ undo, undo (mutation.apply data) = data →
      Meets (persistOr codec key nonce undo ⟨⟨mutation.apply data, disk⟩, outcomes⟩) Q E C) :
    Meets (mutate codec key nonce mutation ⟨⟨data, disk⟩, outcomes⟩) Q E C := by
  cases mutation with
  | save secretRef value =>
    unfold mutate save
    dsimp only
    rw [meets_bind]
    cases hcheck : checkSave secretRef value with
    | error e =>
      refine hrefused e ?_
      unfold persists
      dsimp only
      rw [hcheck]
      rfl
    | ok _ =>
      refine hpersist ?_ _ (putBackValue_insert data secretRef value)
      exact isOk_iff.mpr hcheck
  | delete secretRef =>
    unfold mutate delete
    dsimp only
    rw [meets_bind, meets_bind]
    cases hcheck : validateRef secretRef with
    | error e =>
      refine hrefused e ?_
      unfold persists
      dsimp only
      rw [hcheck]
      rfl
    | ok _ =>
      rw [meets_ofExcept_ok, meets_bind, meets_get]
      dsimp only
      cases hprevious : data[secretRef]? with
      | none =>
        have hcontains : data.contains secretRef = false := by
          rw [← ExtTreeMap.isSome_getElem?_eq_contains, hprevious]
          rfl
        refine hidle ?_ (ExtTreeMap.ext_getElem? fun k => ?_)
        · unfold persists
          dsimp only
          rw [hcontains, Bool.and_false]
        · show (data.erase secretRef)[k]? = data[k]?
          rw [getElem?_erase_ite]
          split
          case isTrue heq => exact heq ▸ hprevious.symm
          case isFalse => rfl
      | some previous =>
        dsimp only
        rw [meets_bind, setData, meets_modify, meets_bind]
        refine hpersist ?_ _ (putBackValue_erase hprevious)
        unfold persists
        dsimp only
        rw [hcheck, contains_of_getElem? hprevious]
        rfl

end

/-! ## Runs -/

variable (codec key) in
def step (s : System) : Step → System
  | .mutate mutation nonce outcomes =>
    match s.memory with
    | none => s
    | some data => afterMutate s mutation (mutate codec key nonce mutation ⟨⟨data, s.disk⟩, outcomes⟩)
  | .restart outcomes =>
    match openVault codec key ⟨⟨∅, s.disk⟩, outcomes⟩ with
    | (.ok _, w) => ⟨w.state.disk, some w.state.data, w.state.data, none⟩
    | (.error _, w) => { s with disk := w.state.disk, memory := none }
    | (.crash, w) => { s with disk := w.state.disk, memory := none }

variable (codec key) in
/-- The next start succeeds, with the entries of the last mutation that succeeded or of the one in progress, and
these are the entries of the running process. -/
def Survives (s : System) : Prop :=
  ∃ data, Opens codec key s.disk data ∧ (data = s.entries ∨ s.pending = some data) ∧
    ∀ data', s.memory = some data' → data' = data

/-- A file that the step puts in place is not too long, and the backup is removed or the entries are the same as
before. And where the only file is the backup, which the step has removed, the step gets its own file into place, or
nothing is lost with the backup. -/
def SoundWrite (disk : Disk) (outcomes : List Outcome) (data data' : VaultData) (bytes : List UInt8) : Prop :=
  if Goes (writesBefore disk + 1) outcomes then bytes.length ≤ maxVaultBytes ∧ (RemovalFails disk outcomes → data' = data)
  else Goes (writesBefore disk) outcomes → disk.path = none → disk.backup ≠ none →
    data = ∅ ∨ data' = ∅ ∧ .crashed ∈ (outcomes.drop (writesBefore disk)).take 2

variable (codec key) in
def Sound (s : System) : Step → Prop
  | .mutate mutation nonce outcomes =>
    ∀ data bytes, s.memory = some data → file codec key mutation nonce data = some bytes →
      SoundWrite s.disk outcomes data (mutation.apply data) bytes
  | .restart _ => True

theorem survives_iff {s : System} : Survives codec key s ↔ ∃ data, readFile codec key (current s.disk) = .ok data ∧
    (data = s.entries ∨ s.pending = some data) ∧ ∀ data', s.memory = some data' → data' = data := by
  unfold Survives
  simp only [opens_iff]

section
variable {s s' : System} {data data' : VaultData} {outcomes : List Outcome} {bytes : List UInt8} {nonce : Nonce}

/-- The new file is in place. -/
theorem survives_of_done (hcodec : codec.Correct) (hseal : sealed codec key nonce data' = .ok bytes)
    (hgoes : Goes (writesBefore s.disk + 1) outcomes) (hremoved : ¬RemovalFails s.disk outcomes) (hpath : s'.disk.path = some bytes)
    (hallowed : data' = s'.entries ∨ s'.pending = some data') (hmemory : ∀ data'', s'.memory = some data'' → data'' = data') :
    Survives codec key s' ↔ SoundWrite s.disk outcomes data data' bytes := by
  have hcurrent : current s'.disk = some bytes := by
    unfold current
    rw [hpath, Option.some_or]
  rw [survives_iff, hcurrent, SoundWrite, if_pos hgoes]
  constructor
  · rintro ⟨data'', hread, -⟩
    exact ⟨((read_sealed hcodec hseal data'').mp hread).2, fun hfails => absurd hfails hremoved⟩
  · rintro ⟨hsize, -⟩
    exact ⟨data', (read_sealed hcodec hseal data').mpr ⟨rfl, hsize⟩, hallowed, hmemory⟩

/-- The new file is in place, but the process has given it up. -/
theorem survives_of_late (hcodec : codec.Correct) (hseal : sealed codec key nonce data' = .ok bytes)
    (hgoes : Goes (writesBefore s.disk + 1) outcomes) (hfails : RemovalFails s.disk outcomes) (hpath : s'.disk.path = some bytes)
    (hentries : s'.entries = data) (hmemory : s'.memory = some data) :
    Survives codec key s' ↔ SoundWrite s.disk outcomes data data' bytes := by
  have hcurrent : current s'.disk = some bytes := by
    unfold current
    rw [hpath, Option.some_or]
  rw [survives_iff, hcurrent, SoundWrite, if_pos hgoes]
  constructor
  · rintro ⟨data'', hread, -, hsame⟩
    obtain ⟨rfl, hsize⟩ := (read_sealed hcodec hseal data'').mp hread
    exact ⟨hsize, fun _ => (hsame data hmemory).symm⟩
  · rintro ⟨hsize, hsame⟩
    obtain rfl := hsame hfails
    refine ⟨data', (read_sealed hcodec hseal data').mpr ⟨rfl, hsize⟩, .inl hentries.symm, fun data'' hdata'' => ?_⟩
    exact (Option.some.inj (hmemory.symm.trans hdata'')).symm

theorem soundWrite_of_remains {vault : Vault} {crashes : Bool} {vault' : Vault} (h : Remains vault (padded outcomes) crashes vault') :
    SoundWrite vault.disk outcomes data data' bytes ↔ (Lost vault.disk (padded outcomes) → data = ∅ ∨ data' = ∅ ∧ crashes = true) := by
  have hdesktop : VaultStore.SoundWrite vault.disk (padded outcomes) data data' bytes ↔ _ := VaultStore.soundWrite_of_remains h
  unfold VaultStore.SoundWrite at hdesktop
  rw [if_neg h.stops, goes_preparations, drop_preparations] at hdesktop
  rw [SoundWrite, if_neg fun hgoes => h.stops (goes_installed.mpr hgoes)]
  exact hdesktop

/-- The former file is left, or nothing. -/
theorem survives_of_remains {vault : Vault} {crashes : Bool} {vault' : Vault} (hread : readFile codec key (current vault.disk) = .ok data)
    (h : Remains vault (padded outcomes) crashes vault') (hdisk : s'.disk = vault'.disk)
    (hallowed : ∀ data'', (data'' = s'.entries ∨ s'.pending = some data'') ↔ data'' = data ∨ data'' = data' ∧ crashes = true)
    (hmemory : ∀ data'', s'.memory = some data'' → data'' = data ∧ crashes = false) :
    Survives codec key s' ↔ SoundWrite vault.disk outcomes data data' bytes := by
  rw [survives_iff, hdisk, h.survivor, soundWrite_of_remains h]
  obtain ⟨hlost, hnone⟩ | ⟨hkept, hcurrent⟩ := survivor_cases vault.disk (padded outcomes)
  · rw [hnone]
    constructor
    · rintro ⟨data'', hread', hdata'', -⟩ -
      obtain rfl := Except.ok.inj hread'
      exact ((hallowed ∅).mp hdata'').imp Eq.symm (And.imp_left Eq.symm)
    · intro hsound
      have hempty := hsound hlost
      refine ⟨∅, rfl, (hallowed ∅).mpr (hempty.imp Eq.symm (And.imp_left Eq.symm)), fun data'' hdata'' => ?_⟩
      obtain ⟨rfl, hcrashes⟩ := hmemory data'' hdata''
      refine hempty.resolve_right fun hboth => ?_
      rw [hcrashes] at hboth
      exact nomatch hboth.2
  · rw [hcurrent]
    constructor
    · exact fun _ hlost => absurd hlost hkept
    · exact fun _ => ⟨data, hread, (hallowed data).mpr (.inl rfl), fun data'' hdata'' => (hmemory data'' hdata'').1⟩

end

section
variable {s : System} {data : VaultData} {mutation : Mutation} {nonce : Nonce}

theorem step_mutate (h : s.memory = some data) (outcomes : List Outcome) : step codec key s (.mutate mutation nonce outcomes) =
    afterMutate s mutation (mutate codec key nonce mutation ⟨⟨data, s.disk⟩, outcomes⟩) := by
  unfold step
  dsimp only
  rw [h]

/-- With a file to write, the system after the step opens exactly where the step was sound. -/
theorem survives_mutate (hcodec : codec.Correct) (hmemory : s.memory = some data) (hentries : s.entries = data)
    (hread : readFile codec key (current s.disk) = .ok data) {bytes : List UInt8} (hfile : file codec key mutation nonce data = some bytes)
    (outcomes : List Outcome) :
    Agrees (step codec key s (.mutate mutation nonce outcomes)) ∧
      (Survives codec key (step codec key s (.mutate mutation nonce outcomes)) ↔
        SoundWrite s.disk outcomes data (mutation.apply data) bytes) := by
  obtain ⟨hpersists, hseal⟩ := file_eq_some hfile
  have hidle : persists mutation data ≠ false := by rw [hpersists]; exact nofun
  have hstays : ∀ {w : World Vault}, w.state.data = data →
      Agrees ⟨w.state.disk, some w.state.data, s.entries, none⟩ := fun hdata =>
    ⟨fun data' hdata' => by rw [← Option.some.inj hdata', hdata, hentries], fun _ _ => rfl⟩
  rw [step_mutate hmemory]
  refine afterMutate_of_meets (P := fun s' => Agrees s' ∧ (Survives codec key s' ↔
    SoundWrite s.disk outcomes data (mutation.apply data) bytes)) (meets_mutate_of (fun h => absurd h hidle) (fun _ h => absurd h hidle)
      fun _ undo hundo => meets_persistOr hseal hundo ⟨?_, ?_, ?_, ?_, ?_⟩)
  · intro hgoes hremoved w hdata hpath
    refine ⟨⟨fun data' hdata' => by rw [← Option.some.inj hdata', hdata, hentries], fun _ _ => rfl⟩, ?_⟩
    refine survives_of_done hcodec hseal hgoes hremoved hpath (.inl (by rw [hentries])) fun data' hdata' => ?_
    rw [← Option.some.inj hdata', hdata]
  · intro e w hdata hremains
    refine ⟨hstays hdata, survives_of_remains hread hremains rfl (fun data' => ?_) fun data' hdata' => ⟨?_, rfl⟩⟩
    · rw [hentries]
      constructor
      · exact fun h => .inl (h.resolve_right nofun)
      · exact fun h => .inl (h.resolve_right fun hboth => nomatch hboth.2)
    · rw [← Option.some.inj hdata', hdata]
  · intro hgoes hfails e w hdata hpath
    exact ⟨hstays hdata, survives_of_late hcodec hseal hgoes hfails hpath hentries (congrArg some hdata)⟩
  · intro hgoes hremoved w hpath
    refine ⟨⟨fun _ h => (nomatch h), fun _ h => (nomatch h)⟩, ?_⟩
    exact survives_of_done hcodec hseal hgoes hremoved hpath (.inr (by rw [hentries])) fun _ h => nomatch h
  · intro w hremains
    refine ⟨⟨fun _ h => (nomatch h), fun _ h => (nomatch h)⟩, ?_⟩
    refine survives_of_remains hread hremains rfl (fun data' => ?_) fun _ h => nomatch h
    rw [hentries, Option.some.injEq, and_iff_left rfl]
    exact or_congr_right eq_comm

/-- Without a file to write, nothing changes. -/
theorem survives_mutate_none (hmemory : s.memory = some data) (hentries : s.entries = data)
    (hread : readFile codec key (current s.disk) = .ok data) (hfile : file codec key mutation nonce data = none)
    (outcomes : List Outcome) :
    Agrees (step codec key s (.mutate mutation nonce outcomes)) ∧
      Survives codec key (step codec key s (.mutate mutation nonce outcomes)) := by
  have hsame : Agrees ⟨s.disk, some data, data, none⟩ ∧ Survives codec key ⟨s.disk, some data, data, none⟩ :=
    ⟨⟨fun _ hdata' => Option.some.inj hdata', fun _ _ => rfl⟩,
      survives_iff.mpr ⟨data, hread, .inl rfl, fun _ hdata' => (Option.some.inj hdata').symm⟩⟩
  rw [step_mutate hmemory]
  refine afterMutate_of_meets (P := fun s' => Agrees s' ∧ Survives codec key s') (meets_mutate_of (fun _ happly => ?_) (fun e _ => ?_)
    fun hpersists undo hundo => ?_)
  · show Agrees ⟨s.disk, some data, mutation.apply s.entries, none⟩ ∧ _
    rw [hentries, happly]
    exact hsame
  · rw [hentries]
    exact hsame
  · obtain ⟨e, hseal⟩ := file_eq_none hfile hpersists
    refine meets_persistOr_error hseal hundo ?_
    rw [hentries]
    exact hsame

/-- A restart, whether or not it succeeds. -/
theorem survives_restart (h : Survives codec key s) (outcomes : List Outcome) :
    Agrees (step codec key s (.restart outcomes)) ∧ Survives codec key (step codec key s (.restart outcomes)) := by
  obtain ⟨data, hread, hallowed, -⟩ := survives_iff.mp h
  have hopen := @meets_openVault codec key ⟨∅, s.disk⟩ outcomes
  have hdown : ∀ {disk : Disk}, current disk = current s.disk →
      Agrees { s with disk, memory := none } ∧ Survives codec key { s with disk, memory := none } := fun hcurrent =>
    ⟨⟨fun _ h => (nomatch h), fun _ h => (nomatch h)⟩, survives_iff.mpr ⟨data, hcurrent ▸ hread, hallowed, fun _ h => (nomatch h)⟩⟩
  unfold step
  dsimp only
  rcases hrun : openVault codec key ⟨⟨∅, s.disk⟩, outcomes⟩ with ⟨value | e | _, w⟩ <;> rw [hrun] at hopen
  · obtain ⟨hcurrent, hread'⟩ := hopen
    refine ⟨⟨fun data' hdata' => Option.some.inj hdata', fun _ _ => rfl⟩, survives_iff.mpr ?_⟩
    exact ⟨w.state.data, hcurrent ▸ hread', .inl rfl, fun data' hdata' => (Option.some.inj hdata').symm⟩
  · exact hdown hopen.1
  · exact hdown hopen.1

/-- A step from a system that survives leads to one exactly if it is sound. -/
theorem survives_step (hcodec : codec.Correct) (hagrees : Agrees s) (h : Survives codec key s) (op : Step) :
    Agrees (step codec key s op) ∧ (Survives codec key (step codec key s op) ↔ Sound codec key s op) := by
  cases op with
  | restart outcomes =>
    have hrestart := survives_restart h outcomes
    exact ⟨hrestart.1, iff_of_true hrestart.2 trivial⟩
  | mutate mutation nonce outcomes =>
    cases hmemory : s.memory with
    | none =>
      have hstep : step codec key s (.mutate mutation nonce outcomes) = s := by
        unfold step
        dsimp only
        rw [hmemory]
      rw [hstep]
      exact ⟨hagrees, iff_of_true h fun data bytes hdata => nomatch hmemory.symm.trans hdata⟩
    | some data =>
      obtain ⟨data', hread, -, hdata'⟩ := survives_iff.mp h
      obtain rfl := hdata' data hmemory
      have hentries := hagrees.entries data hmemory
      have hsound : Sound codec key s (.mutate mutation nonce outcomes) ↔ ∀ bytes, file codec key mutation nonce data = some bytes →
          SoundWrite s.disk outcomes data (mutation.apply data) bytes := by
        constructor
        · exact fun hsound bytes => hsound data bytes hmemory
        · intro hsound data' bytes hdata'
          obtain rfl := Option.some.inj (hmemory.symm.trans hdata')
          exact hsound bytes
      rw [hsound]
      cases hfile : file codec key mutation nonce data with
      | none =>
        have hmutate := survives_mutate_none hmemory hentries hread hfile outcomes
        exact ⟨hmutate.1, iff_of_true hmutate.2 fun _ => nofun⟩
      | some bytes =>
        have hmutate := survives_mutate hcodec hmemory hentries hread hfile outcomes
        refine ⟨hmutate.1, hmutate.2.trans ⟨fun hsound bytes' hbytes' => ?_, fun hsound => hsound bytes rfl⟩⟩
        exact Option.some.inj hbytes' ▸ hsound

end

/-- From files that open, every state of a run survives exactly if all its steps are sound. -/
theorem server_vault_survives (hcodec : codec.Correct) {disk : Disk} {data : VaultData} (hopen : Opens codec key disk data)
    (ops : List Step) :
    (∀ before after, ops = before ++ after → Survives codec key (run (step codec key) (start disk data) before)) ↔
      StepsMeet (step codec key) (Sound codec key) (start disk data) ops := by
  have hnone : ∀ data', (start disk data).memory ≠ some data' := fun _ => nofun
  refine StepsMeet.always_iff (I := Agrees) (fun s op hagrees h => survives_step hcodec hagrees h op) ?_ ?_ ops
  · exact ⟨fun _ h => absurd h (hnone _), fun _ h => absurd h (hnone _)⟩
  · exact ⟨data, hopen, .inl rfl, fun _ h => absurd h (hnone _)⟩

end

/-! ## A backup that stays -/

/-- A save that cannot be written. -/
theorem server_vault_survives_sample :
    [Step.restart [], .mutate (.save "a" "x") sampleNonce [.failed]].inits.Forall fun before =>
      Survives sampleCodec sampleKey (run (step sampleCodec sampleKey) (start ⟨none, none, none⟩ ∅) before) := by
  refine List.forall_iff_forall_mem.mpr fun before hmem => ?_
  obtain ⟨after, heq⟩ := (List.mem_inits _ _).mp hmem
  refine (server_vault_survives sampleCodec_correct (opens_iff.mpr rfl) _).mpr ?_ before after heq.symm
  refine ⟨trivial, fun data bytes _ _ => ?_, trivial⟩
  have hstop : ∀ disk, ¬Goes (writesBefore disk) [.failed] := by
    intro disk hgoes
    have hcount : 1 ≤ writesBefore disk := by
      unfold writesBefore
      omega
    refine absurd (hgoes .failed ?_) nofun
    rw [List.take_of_length_le hcount]
    exact List.mem_cons_self
  unfold SoundWrite
  rw [if_neg fun hgoes => hstop _ ((goes_add _ 1 _).mp hgoes).1]
  exact fun hgoes => absurd hgoes (hstop _)

/-- The second save gets its file into place, and its backup cannot be removed. -/
def keptBackup : List Step :=
  [.restart [], .mutate (.save "a" "x") sampleNonce [],
    .mutate (.save "b" "y") sampleNonce [.done, .done, .done, .failed]]

/-- The save has failed, memory has one entry, and the next start finds two. -/
theorem failed_save_is_found :
    ¬Survives sampleCodec sampleKey (run (step sampleCodec sampleKey) (start ⟨none, none, none⟩ ∅) keptBackup) := by
  intro h
  obtain ⟨data, hread, hallowed, -⟩ := survives_iff.mp h
  have hfound : (readFile sampleCodec sampleKey
      (current (run (step sampleCodec sampleKey) (start ⟨none, none, none⟩ ∅) keptBackup).disk)).map (·.size) = .ok 2 := by
    decide +kernel
  have hentries : (run (step sampleCodec sampleKey) (start ⟨none, none, none⟩ ∅) keptBackup).entries.size = 1 := by
    decide +kernel
  have hpending : (run (step sampleCodec sampleKey) (start ⟨none, none, none⟩ ∅) keptBackup).pending = none := rfl
  rw [hread] at hfound
  have hsize : data.size = 2 := Except.ok.inj hfound
  rcases hallowed with heq | hsome
  · rw [heq, hentries] at hsize
    exact absurd hsize (by decide)
  · exact nomatch hpending.symm.trans hsome

end Zenith.ServerVault
