import Mathlib
import Zenith.Lib.Runs
import Zenith.Secrets.Vault

/-!
# What the next start finds

Every mutation either takes effect or leaves the vault as it was, and a crash leaves one of the two. Two things go
against it. The size limit is checked before the data are encrypted and again, for the whole file, at the next start:
data that fit by less than the header and the tag make a file that no start accepts. And a mutation removes the backup
before it looks whether the file is there, so that it may remove the only copy. `vault_survives` says that there is
nothing else.

`current` is the file that a start would read.
-/

namespace Zenith.VaultStore

open Std Zenith.Faults Zenith.Runs Zenith.Tables

/-- The length of the cipher's tag. -/
def tagBytes : Nat := 16

/-- What the vault relies on: what is written is read back, and the tag is all that a ciphertext adds. -/
structure Codec.Correct (codec : Codec) : Prop where
  reads : ∀ data, codec.fromSlice (codec.toVec data) = some data
  decrypts : ∀ key nonce plaintext ciphertext, codec.encrypt key nonce plaintext = some ciphertext →
    codec.decrypt key nonce.toList ciphertext = some plaintext
  tagged : ∀ key nonce plaintext ciphertext, codec.encrypt key nonce plaintext = some ciphertext →
    ciphertext.length = plaintext.length + tagBytes

/-! ## Replacing the file -/

/-- The file that a start would read. -/
def current (disk : Disk) : Option (List UInt8) := disk.path.or disk.backup

/-- The writes before the new file is renamed into place. -/
def preparations (disk : Disk) : Nat :=
  3 + (if disk.backup.isSome then 1 else 0) + if disk.path.isSome then 1 else 0

/-- What is left where the new file is not installed. -/
def survivor (disk : Disk) (outcomes : List Outcome) : Option (List UInt8) :=
  if Goes (preparations disk) outcomes then disk.path else current disk

/-- The data and the file that a start would read are still the same. -/
def Same (vault vault' : Vault) : Prop := vault'.data = vault.data ∧ current vault'.disk = current vault.disk

theorem Same.trans {vault vault' vault'' : Vault} (h : Same vault vault') (h' : Same vault' vault'') :
    Same vault vault'' :=
  ⟨h'.1.trans h.1, h'.2.trans h.2⟩

/-- The operation goes from `vault` to `vault'` in `n` writes, and changes nothing that matters where it does not get there. -/
def Advances (op : VaultOp Unit) (vault : Vault) (n : Nat) (vault' : Vault) : Prop :=
  ∀ outcomes, Meets (op ⟨vault, outcomes⟩) (fun _ w => Goes n outcomes ∧ w = ⟨vault', outcomes.drop n⟩)
    (fun _ w => ¬Goes n outcomes ∧ Same vault w.state) (fun w => ¬Goes n outcomes ∧ Same vault w.state)

theorem advances_writeDisk (update : Disk → Disk) (vault : Vault) :
    Advances (writeDisk update) vault 1 { vault with disk := update vault.disk } := fun _ =>
  meets_write_goes (fun h => ⟨h, rfl⟩) (fun h _ => ⟨h, rfl, rfl⟩) fun h _ => ⟨h, rfl, rfl⟩

theorem advances_pure (vault : Vault) : Advances (pure ()) vault 0 vault := fun outcomes => ⟨goes_zero outcomes, rfl⟩

theorem Advances.bind {op next : VaultOp Unit} {vault vault' vault'' : Vault} {n m : Nat}
    (h : Advances op vault n vault') (hnext : Advances next vault' m vault'') (hsame : Same vault vault' ∨ m = 0) :
    Advances (op >>= fun _ => next) vault (n + m) vault'' := by
  intro outcomes
  have hrest : ¬Goes m (outcomes.drop n) → Same vault vault' := by
    intro hstop
    refine hsame.resolve_right ?_
    rintro rfl
    exact hstop (goes_zero _)
  rw [meets_bind]
  refine (h outcomes).mono ?_ ?_ ?_
  · rintro _ _ ⟨hgoes, rfl⟩
    refine (hnext (outcomes.drop n)).mono ?_ ?_ ?_
    · rintro _ _ ⟨hgoes', rfl⟩
      exact ⟨(goes_add n m outcomes).mpr ⟨hgoes, hgoes'⟩, by rw [List.drop_drop]⟩
    · rintro _ w ⟨hstop, hw⟩
      exact ⟨fun hall => hstop ((goes_add n m outcomes).mp hall).2, (hrest hstop).trans hw⟩
    · rintro w ⟨hstop, hw⟩
      exact ⟨fun hall => hstop ((goes_add n m outcomes).mp hall).2, (hrest hstop).trans hw⟩
  · rintro _ w ⟨hstop, hw⟩
    exact ⟨fun hall => hstop ((goes_add n m outcomes).mp hall).1, hw⟩
  · rintro w ⟨hstop, hw⟩
    exact ⟨fun hall => hstop ((goes_add n m outcomes).mp hall).1, hw⟩

theorem advances_clearBackup (vault : Vault) : Advances clearBackup vault (if vault.disk.backup.isSome then 1 else 0)
    { vault with disk := { vault.disk with backup := none } } := by
  obtain ⟨data, path, backup, temporary⟩ := vault
  cases backup with
  | none => exact advances_pure _
  | some old => exact advances_writeDisk (fun disk => { disk with backup := none }) ⟨data, path, some old, temporary⟩

theorem advances_setPathAside (vault : Vault) (h : vault.disk.backup = none) :
    Advances setPathAside vault (if vault.disk.path.isSome then 1 else 0)
      { vault with disk := { vault.disk with path := none, backup := vault.disk.path } } := by
  obtain ⟨data, path, backup, temporary⟩ := vault
  obtain rfl : backup = none := h
  cases path with
  | none => exact advances_pure _
  | some bytes =>
    exact advances_writeDisk (fun disk => { disk with path := none, backup := disk.path }) ⟨data, some bytes, none, temporary⟩

theorem advances_prepare (bytes : List UInt8) (vault : Vault) : Advances (prepare bytes) vault (preparations vault.disk)
    ⟨vault.data, ⟨none, vault.disk.path, some bytes⟩⟩ := by
  have hclear : Same ⟨vault.data, { vault.disk with temporary := some bytes }⟩
        ⟨vault.data, { vault.disk with backup := none, temporary := some bytes }⟩ ∨
      (if vault.disk.path.isSome then 1 else 0) = 0 := by
    rcases vault with ⟨data, path | file, backup, temporary⟩
    · exact .inr rfl
    · exact .inl ⟨rfl, rfl⟩
  have hend := (advances_clearBackup ⟨vault.data, { vault.disk with temporary := some bytes }⟩).bind
    (advances_setPathAside ⟨vault.data, { vault.disk with backup := none, temporary := some bytes }⟩ rfl) hclear
  have hsync := (advances_writeDisk id ⟨vault.data, { vault.disk with temporary := some bytes }⟩).bind hend (.inl ⟨rfl, rfl⟩)
  have hwrite := (advances_writeDisk (fun disk => { disk with temporary := some bytes })
    ⟨vault.data, { vault.disk with temporary := some [] }⟩).bind hsync (.inl ⟨rfl, rfl⟩)
  have hall := (advances_writeDisk (fun disk => { disk with temporary := some [] }) vault).bind hwrite (.inl ⟨rfl, rfl⟩)
  have hcount : 1 + (1 + (1 + ((if vault.disk.backup.isSome then 1 else 0) + if vault.disk.path.isSome then 1 else 0))) =
      preparations vault.disk := by
    unfold preparations
    omega
  rw [← hcount]
  exact hall

variable {outcomes : List Outcome}

theorem head_ne_crashed (h : Goes 1 outcomes) : outcomes.head? ≠ some .crashed := by
  cases outcomes with
  | nil => exact nofun
  | cons outcome rest =>
    obtain rfl := h outcome List.mem_cons_self
    exact nofun

/-- A write whose failure is passed over. -/
theorem meets_ignore_writeDisk {update : Disk → Disk} {vault : Vault}
    {Q : Unit → World Vault → Prop} {E : VaultError → World Vault → Prop} {C : World Vault → Prop}
    (hQ : ∀ vault', vault' = vault ∨ vault' = { vault with disk := update vault.disk } →
      outcomes.head? ≠ some .crashed → Q () ⟨vault', outcomes.drop 1⟩)
    (hC : outcomes.head? = some .crashed → C ⟨vault, outcomes.drop 1⟩) :
    Meets (ignore (writeDisk update) ⟨vault, outcomes⟩) Q E C := by
  unfold ignore
  rw [meets_bind, meets_attempt]
  refine meets_write_goes (fun h => ?_) (fun _ h => ?_) fun _ h => hC h
  · exact hQ _ (.inr rfl) (head_ne_crashed h)
  · exact hQ _ (.inl rfl) (by rw [h]; exact nofun)

/-- What is left of a vault where the new file is not installed. `crashes` says whether the program has stopped. -/
structure Remains (vault : Vault) (outcomes : List Outcome) (crashes : Bool) (vault' : Vault) : Prop where
  stops : ¬Goes (preparations vault.disk + 1) outcomes
  survivor : current vault'.disk = survivor vault.disk outcomes
  bare : Goes (preparations vault.disk) outcomes → vault.disk.path = none →
    (crashes = true ↔ .crashed ∈ (outcomes.drop (preparations vault.disk)).take 2)

theorem remains_of_prepare {vault vault' : Vault} (crashes : Bool)
    (hstop : ¬Goes (preparations vault.disk) outcomes) (hsame : Same vault vault') :
    Remains vault outcomes crashes vault' where
  stops h := hstop ((goes_add _ _ _).mp h).1
  survivor := by rw [hsame.2, VaultStore.survivor, if_neg hstop]
  bare h := absurd h hstop

/-- What the removal of the temporary file starts from. -/
structure Fails (vault : Vault) (outcomes : List Outcome) (w : World Vault) : Prop where
  stops : ¬Goes (preparations vault.disk + 1) outcomes
  data : w.state.data = vault.data
  survivor : current w.state.disk = survivor vault.disk outcomes
  bare : Goes (preparations vault.disk) outcomes → vault.disk.path = none →
    outcomes.drop (preparations vault.disk) = .failed :: w.outcomes

theorem head?_drop_one {outcome : Outcome} (h : outcomes.head? = some outcome) :
    outcomes = outcome :: outcomes.drop 1 := by
  cases outcomes with
  | nil => exact nomatch h
  | cons first rest =>
    obtain rfl := Option.some.inj h
    rfl

/-- The rename of the new file, after the preparations. -/
theorem meets_install {bytes : List UInt8} {vault : Vault}
    (hgoes : Goes (preparations vault.disk) outcomes) :
    Meets ((do
        match ← install.attempt with
        | .error e => do
          putBackIfThere
          Op.throw e
        | .ok () => ignore removeBackup : VaultOp Unit)
      ⟨⟨vault.data, ⟨none, vault.disk.path, some bytes⟩⟩, outcomes.drop (preparations vault.disk)⟩)
      (fun _ w => Goes (preparations vault.disk + 1) outcomes ∧ w.state.data = vault.data ∧
        w.state.disk.path = some bytes)
      (fun _ w => Fails vault outcomes w)
      (fun w => (Goes (preparations vault.disk + 1) outcomes ∧ w.state.disk.path = some bytes) ∨
        Remains vault outcomes true w.state) := by
  have hsurvivor : survivor vault.disk outcomes = vault.disk.path := if_pos hgoes
  rw [meets_bind, meets_attempt]
  unfold install writeDisk
  refine meets_write_goes (fun hdone => ?_) (fun hstop hfailed => ?_) fun hstop hcrashed => ?_
  · have hall := (goes_add (preparations vault.disk) 1 outcomes).mpr ⟨hgoes, hdone⟩
    refine meets_ignore_writeDisk (fun vault' hvault' _ => ?_) fun _ => .inl ⟨hall, rfl⟩
    obtain rfl | rfl := hvault'
    · exact ⟨hall, rfl, rfl⟩
    · exact ⟨hall, rfl, rfl⟩
  · have hnot : ¬Goes (preparations vault.disk + 1) outcomes := fun h => hstop ((goes_add _ _ _).mp h).2
    have hdrop := head?_drop_one hfailed
    dsimp only
    rw [meets_bind]
    unfold putBackIfThere
    rw [meets_bind, meets_get]
    dsimp only
    cases hpath : vault.disk.path with
    | none =>
      refine ⟨hnot, rfl, ?_, fun _ _ => hdrop⟩
      rw [hsurvivor, hpath]
      rfl
    | some old =>
      have hbare : Goes (preparations vault.disk) outcomes → vault.disk.path = none → False := by
        intro _ hnone
        rw [hpath] at hnone
        exact nomatch hnone
      refine meets_ignore_writeDisk (fun vault' hvault' _ => ?_) fun _ => .inr ⟨hnot, ?_, fun h h' => (hbare h h').elim⟩
      · refine ⟨hnot, ?_, ?_, fun h h' => (hbare h h').elim⟩
        · obtain rfl | rfl := hvault' <;> rfl
        · rw [hsurvivor, hpath]
          obtain rfl | rfl := hvault' <;> rfl
      · rw [hsurvivor, hpath]
        rfl
  · have hnot : ¬Goes (preparations vault.disk + 1) outcomes := fun h => hstop ((goes_add _ _ _).mp h).2
    refine .inr ⟨hnot, by rw [hsurvivor]; rfl, fun _ _ => ⟨fun _ => ?_, fun _ => rfl⟩⟩
    rw [head?_drop_one hcrashed]
    exact List.mem_cons_self

theorem meets_replace (bytes : List UInt8) (vault : Vault) (outcomes : List Outcome) :
    Meets (replace bytes ⟨vault, outcomes⟩)
      (fun _ w => Goes (preparations vault.disk + 1) outcomes ∧ w.state.data = vault.data ∧
        w.state.disk.path = some bytes)
      (fun _ w => Fails vault outcomes w)
      (fun w => (Goes (preparations vault.disk + 1) outcomes ∧ w.state.disk.path = some bytes) ∨
        Remains vault outcomes true w.state) := by
  unfold replace
  rw [meets_bind]
  refine (advances_prepare bytes vault outcomes).mono ?_ ?_ ?_
  · rintro _ _ ⟨hgoes, rfl⟩
    exact meets_install hgoes
  · rintro _ w ⟨hstop, hsame⟩
    have hrem := remains_of_prepare false hstop hsame
    exact ⟨hrem.stops, hsame.1, hrem.survivor, fun h => absurd h hstop⟩
  · rintro w ⟨hstop, hsame⟩
    exact .inr (remains_of_prepare true hstop hsame)

/-- The file is replaced, or something remains of the former one. -/
theorem meets_atomicReplace (bytes : List UInt8) (vault : Vault) (outcomes : List Outcome) :
    Meets (atomicReplace bytes ⟨vault, outcomes⟩)
      (fun _ w => Goes (preparations vault.disk + 1) outcomes ∧ w.state.data = vault.data ∧
        w.state.disk.path = some bytes)
      (fun _ w => w.state.data = vault.data ∧ Remains vault outcomes false w.state)
      (fun w => (Goes (preparations vault.disk + 1) outcomes ∧ w.state.disk.path = some bytes) ∨
        Remains vault outcomes true w.state) := by
  unfold atomicReplace
  rw [meets_bind, meets_attempt]
  refine (meets_replace bytes vault outcomes).mono (fun _ _ h => h) ?_ fun _ h => h
  intro e w hfails
  have hcrashed : Goes (preparations vault.disk) outcomes → vault.disk.path = none →
      (.crashed ∈ (outcomes.drop (preparations vault.disk)).take 2 ↔ w.outcomes.head? = some .crashed) := by
    intro hgoes hpath
    rw [hfails.bare hgoes hpath]
    cases w.outcomes with
    | nil => decide
    | cons outcome rest => cases outcome <;> simp
  dsimp only
  rw [meets_bind]
  refine meets_ignore_writeDisk (fun vault' hvault' hhead => ?_) fun hhead => .inr ⟨hfails.stops, hfails.survivor, ?_⟩
  · refine ⟨?_, hfails.stops, ?_, fun hgoes hpath => ⟨nofun, fun h => absurd ((hcrashed hgoes hpath).mp h) hhead⟩⟩
    · obtain rfl | rfl := hvault' <;> exact hfails.data
    · obtain rfl | rfl := hvault' <;> exact hfails.survivor
  · exact fun hgoes hpath => ⟨fun _ => (hcrashed hgoes hpath).mpr hhead, fun _ => rfl⟩

/-! ## Opening the vault -/

theorem validateData_eq_ok {data : VaultData} : validateData data = .ok () ↔
    data.size ≤ maxValues ∧ ∀ secretRef value, data[secretRef]? = some value → validateEntry (secretRef, value) = .ok () := by
  unfold validateData
  have hentries : (∀ entry ∈ data.toList, validateEntry entry = .ok ()) ↔
      ∀ secretRef value, data[secretRef]? = some value → validateEntry (secretRef, value) = .ok () := by
    constructor
    · intro h secretRef value hvalue
      exact h (secretRef, value) (ExtTreeMap.mem_toList_iff_getElem?_eq_some.mpr hvalue)
    · intro h entry hmem
      exact h entry.1 entry.2 (ExtTreeMap.mem_toList_iff_getElem?_eq_some.mp hmem)
  split
  case isTrue hsize => exact ⟨nofun, fun h => absurd h.1 (Nat.not_le.mpr hsize)⟩
  case isFalse hsize => rw [forM_eq_ok, hentries, and_iff_right (Nat.le_of_not_lt hsize)]

section
variable {codec : Codec} {key : Key}

variable (codec key) in
/-- What a start makes of a file. -/
def read (file : Option (List UInt8)) : Except VaultError VaultData := do
  let data ← readFile codec key file
  validateData data
  return data

variable {data : VaultData}

theorem read_eq_ok {file : Option (List UInt8)} : read codec key file = .ok data ↔
    readFile codec key file = .ok data ∧ validateData data = .ok () := by
  unfold read
  constructor
  · intro h
    obtain ⟨data', hread, h⟩ := bind_eq_ok.mp h
    obtain ⟨⟨⟩, hvalid, h⟩ := bind_eq_ok.mp h
    obtain rfl := Except.ok.inj h
    exact ⟨hread, hvalid⟩
  · rintro ⟨hread, hvalid⟩
    exact bind_eq_ok.mpr ⟨data, hread, bind_eq_ok.mpr ⟨(), hvalid, rfl⟩⟩

theorem readFile_none : read codec key none = .ok ∅ :=
  read_eq_ok.mpr ⟨rfl, validateData_eq_ok.mpr ⟨Nat.zero_le _, fun _ _ h => by
    rw [ExtTreeMap.getElem?_empty] at h
    exact nomatch h⟩⟩

variable (codec key) in
/-- An undisturbed start succeeds with these entries. -/
def Opens (disk : Disk) (data : VaultData) : Prop :=
  Meets (openVault codec key ⟨⟨∅, disk⟩, []⟩) (fun _ w => w.state.data = data) (fun _ _ => False) fun _ => False

theorem advances_recoverBackup (vault : Vault) :
    Advances recoverBackup vault (if vault.disk.path.isNone && vault.disk.backup.isSome then 1 else 0)
      { vault with disk := { vault.disk with
        path := current vault.disk, backup := if vault.disk.path.isNone then none else vault.disk.backup } } := by
  obtain ⟨data, path, backup, temporary⟩ := vault
  cases path with
  | some bytes => exact advances_pure _
  | none =>
    cases backup with
    | none => exact advances_pure _
    | some old =>
      exact advances_writeDisk (fun disk => { disk with path := disk.backup, backup := none }) ⟨data, none, some old, temporary⟩

theorem meets_openVault (vault : Vault) (outcomes : List Outcome) :
    Meets (openVault codec key ⟨vault, outcomes⟩)
      (fun _ w => current w.state.disk = current vault.disk ∧ read codec key (current vault.disk) = .ok w.state.data)
      (fun _ w => current w.state.disk = current vault.disk ∧
        (outcomes = [] → ∀ data, read codec key (current vault.disk) ≠ .ok data))
      (fun w => current w.state.disk = current vault.disk ∧ outcomes ≠ []) := by
  have hcurrent : current { vault.disk with
      path := current vault.disk, backup := if vault.disk.path.isNone then none else vault.disk.backup } =
        current vault.disk := by
    rcases vault with ⟨data, _ | bytes, _ | old, temporary⟩ <;> rfl
  have hnil : ∀ n, ¬Goes n outcomes → outcomes ≠ [] := by
    rintro n hstop rfl
    exact hstop fun _ h => by rw [List.take_nil] at h; exact nomatch h
  unfold openVault
  rw [meets_bind]
  refine (advances_recoverBackup vault outcomes).mono ?_ ?_ ?_
  · rintro _ _ ⟨-, rfl⟩
    rw [meets_bind, meets_get]
    dsimp only
    rw [meets_bind]
    cases hread : readFile codec key (current vault.disk) with
    | error e =>
      refine ⟨hcurrent, fun _ data hdata => ?_⟩
      rw [(read_eq_ok.mp hdata).1] at hread
      exact nomatch hread
    | ok data =>
      show Meets ((Op.ofExcept (validateData data) >>= fun _ => setData fun _ => data) _) _ _ _
      rw [meets_bind]
      cases hvalid : validateData data with
      | error e =>
        refine ⟨hcurrent, fun _ data' hdata => ?_⟩
        obtain ⟨hread', hvalid'⟩ := read_eq_ok.mp hdata
        rw [hread] at hread'
        obtain rfl := Except.ok.inj hread'
        rw [hvalid] at hvalid'
        exact nomatch hvalid'
      | ok _ => exact ⟨hcurrent, read_eq_ok.mpr ⟨hread, hvalid⟩⟩
  · rintro _ w ⟨hstop, hsame⟩
    exact ⟨hsame.2, fun h => absurd h (hnil _ hstop)⟩
  · rintro w ⟨hstop, hsame⟩
    exact ⟨hsame.2, hnil _ hstop⟩

theorem opens_iff {disk : Disk} :
    Opens codec key disk data ↔ read codec key (current disk) = .ok data := by
  constructor
  · intro h
    obtain ⟨_, w, _, ⟨-, hread⟩, rfl⟩ | ⟨_, _, _, _, hfalse⟩ := (Meets.and (meets_openVault ⟨∅, disk⟩ []) h).calm nofun
    · exact hread
    · exact hfalse.elim
  · intro h
    refine (meets_openVault ⟨∅, disk⟩ []).mono ?_ ?_ ?_
    · rintro _ w ⟨-, hread⟩
      exact Except.ok.inj (hread.symm.trans h)
    · rintro _ w ⟨-, hnone⟩
      exact hnone rfl data h
    · rintro w ⟨-, hne⟩
      exact hne rfl

/-! ## A sealed file -/

variable {nonce : Nonce} {bytes : List UInt8}

theorem length_sealed (hcodec : codec.Correct)
    (h : sealed codec key nonce data = .ok bytes) :
    ∃ ciphertext, codec.encrypt key nonce (codec.toVec data) = some ciphertext ∧ bytes = magic ++ nonce.toList ++ ciphertext ∧
      magic.length + nonceBytes < bytes.length := by
  unfold sealed at h
  split at h
  case isTrue => exact nomatch h
  case isFalse =>
    cases hencrypt : codec.encrypt key nonce (codec.toVec data) with
    | none =>
      rw [hencrypt] at h
      exact nomatch h
    | some ciphertext =>
      rw [hencrypt] at h
      obtain rfl := Except.ok.inj h
      refine ⟨ciphertext, rfl, rfl, ?_⟩
      rw [List.length_append, List.length_append, Vector.length_toList, hcodec.tagged _ _ _ _ hencrypt]
      exact Nat.lt_add_of_pos_right (Nat.add_pos_right _ (by decide))

theorem read_sealed (hcodec : codec.Correct)
    (h : sealed codec key nonce data = .ok bytes) (hvalid : validateData data = .ok ()) (data' : VaultData) :
    read codec key (some bytes) = .ok data' ↔ data' = data ∧ bytes.length ≤ maxVaultBytes := by
  obtain ⟨ciphertext, hencrypt, rfl, hlength⟩ := length_sealed hcodec h
  have hheader : (magic ++ nonce.toList ++ ciphertext).take magic.length = magic := by
    rw [List.append_assoc, List.take_left]
  have hnonce : ((magic ++ nonce.toList ++ ciphertext).drop magic.length).take nonceBytes = nonce.toList := by
    rw [List.append_assoc, List.drop_left]
    exact List.take_left' Vector.length_toList
  have hrest : (magic ++ nonce.toList ++ ciphertext).drop (magic.length + nonceBytes) = ciphertext := by
    refine List.drop_left' ?_
    rw [List.length_append, Vector.length_toList]
  have hread : maxVaultBytes < (magic ++ nonce.toList ++ ciphertext).length ∨
      readFile codec key (some (magic ++ nonce.toList ++ ciphertext)) = .ok data := by
    refine (Nat.lt_or_ge maxVaultBytes (magic ++ nonce.toList ++ ciphertext).length).imp_right fun hsize => ?_
    unfold readFile decryptFile
    dsimp only
    rw [if_neg (Nat.not_lt.mpr hsize), if_neg (not_or.mpr ⟨Nat.not_le.mpr hlength, not_not.mpr hheader⟩), hnonce, hrest,
      hcodec.decrypts _ _ _ _ hencrypt]
    dsimp only
    rw [hcodec.reads]
  rw [read_eq_ok]
  constructor
  · rintro ⟨hdata, -⟩
    by_cases hsize : maxVaultBytes < (magic ++ nonce.toList ++ ciphertext).length
    · have htooLarge : readFile codec key (some (magic ++ nonce.toList ++ ciphertext)) = .error .unsafeFile := if_pos hsize
      rw [htooLarge] at hdata
      exact nomatch hdata
    · rw [hread.resolve_left hsize] at hdata
      exact ⟨(Except.ok.inj hdata).symm, Nat.le_of_not_lt hsize⟩
  · rintro ⟨rfl, hsize⟩
    exact ⟨hread.resolve_left (Nat.not_lt.mpr hsize), hvalid⟩

/-! ## Mutations -/

/-- `save` and `delete`. -/
inductive Mutation
  | save (secretRef value : String)
  | delete (secretRef : String)
deriving DecidableEq, Repr

/-- What a mutation is for. -/
def Mutation.apply : Mutation → VaultData → VaultData
  | .save secretRef value, data => data.insert secretRef value
  | .delete secretRef, data => data.erase secretRef

variable (codec key) in
def mutate (nonce : Nonce) : Mutation → VaultOp Unit
  | .save secretRef value => save codec key nonce secretRef value
  | .delete secretRef => do
    let _ ← delete codec key nonce secretRef

/-- The mutation passes its checks and there is something to write. -/
def Mutation.persists : Mutation → VaultData → Bool
  | .save secretRef value, data => (checkSave secretRef value data).isOk
  | .delete secretRef, data => (validateRef secretRef).isOk && data.contains secretRef

variable (codec key) in
/-- The file that the mutation writes. -/
def Mutation.file (mutation : Mutation) (nonce : Nonce) (data : VaultData) : Option (List UInt8) :=
  if mutation.persists data then (sealed codec key nonce (mutation.apply data)).toOption else none

theorem checkSave_eq_ok {secretRef value : String} (h : checkSave secretRef value data = .ok ()) :
    validateEntry (secretRef, value) = .ok () ∧ (data.contains secretRef = true ∨ data.size < maxValues) := by
  unfold checkSave at h
  obtain ⟨⟨⟩, href, h⟩ := bind_eq_ok.mp h
  split at h
  case isTrue => exact nomatch h
  case isFalse hvalue =>
    refine ⟨bind_eq_ok.mpr ⟨(), href, if_neg hvalue⟩, ?_⟩
    split at h
    case isTrue => exact nomatch h
    case isFalse hlimit =>
      cases hcontains : data.contains secretRef with
      | true => exact .inl rfl
      | false =>
        refine .inr (Nat.lt_of_not_le fun hle => hlimit ?_)
        rw [hcontains, decide_eq_true hle]
        rfl

theorem isOk_iff {ε : Type} {x : Except ε Unit} : x.isOk = true ↔ x = .ok () := by
  cases x with
  | error e => exact ⟨nofun, nofun⟩
  | ok _ => exact ⟨fun _ => rfl, fun _ => rfl⟩

variable {mutation : Mutation}

/-- What is written is accepted when it is read. -/
theorem validateData_apply (h : mutation.persists data = true)
    (hvalid : validateData data = .ok ()) : validateData (mutation.apply data) = .ok () := by
  obtain ⟨hsize, hentries⟩ := validateData_eq_ok.mp hvalid
  refine validateData_eq_ok.mpr ?_
  cases mutation with
  | save secretRef value =>
    obtain ⟨hentry, hroom⟩ := checkSave_eq_ok (isOk_iff.mp h)
    constructor
    · unfold Mutation.apply
      dsimp only
      rw [ExtTreeMap.size_insert]
      split
      case isTrue => exact hsize
      case isFalse hnew => exact hroom.resolve_left fun hin => hnew (ExtTreeMap.contains_iff_mem.mp hin)
    · intro secretRef' value' hvalue
      unfold Mutation.apply at hvalue
      dsimp only at hvalue
      rw [ExtTreeMap.getElem?_insert] at hvalue
      split at hvalue
      case isTrue heq =>
        obtain rfl := LawfulEqCmp.eq_of_compare heq
        obtain rfl := Option.some.inj hvalue
        exact hentry
      case isFalse => exact hentries secretRef' value' hvalue
  | delete secretRef =>
    constructor
    · exact Nat.le_trans ExtTreeMap.size_erase_le hsize
    · intro secretRef' value' hvalue
      unfold Mutation.apply at hvalue
      dsimp only at hvalue
      rw [ExtTreeMap.getElem?_erase] at hvalue
      split at hvalue
      case isTrue => exact nomatch hvalue
      case isFalse => exact hentries secretRef' value' hvalue

theorem putBackValue_insert (data : VaultData) (secretRef value : String) :
    putBackValue secretRef data[secretRef]? (data.insert secretRef value) = data := by
  refine ExtTreeMap.ext_getElem? fun k => ?_
  cases hprevious : data[secretRef]? with
  | none =>
    show ((data.insert secretRef value).erase secretRef)[k]? = data[k]?
    rw [ExtTreeMap.getElem?_erase, ExtTreeMap.getElem?_insert]
    split
    case isTrue heq =>
      obtain rfl := LawfulEqCmp.eq_of_compare heq
      exact hprevious.symm
    case isFalse => rfl
  | some previous =>
    show ((data.insert secretRef value).insert secretRef previous)[k]? = data[k]?
    rw [ExtTreeMap.getElem?_insert, ExtTreeMap.getElem?_insert]
    split
    case isTrue heq =>
      obtain rfl := LawfulEqCmp.eq_of_compare heq
      exact hprevious.symm
    case isFalse => rfl

theorem putBackValue_erase {secretRef previous : String} (h : data[secretRef]? = some previous) :
    putBackValue secretRef (some previous) (data.erase secretRef) = data := by
  refine ExtTreeMap.ext_getElem? fun k => ?_
  show ((data.erase secretRef).insert secretRef previous)[k]? = data[k]?
  rw [ExtTreeMap.getElem?_insert, ExtTreeMap.getElem?_erase]
  split
  case isTrue heq =>
    obtain rfl := LawfulEqCmp.eq_of_compare heq
    exact h.symm
  case isFalse => rfl

section
variable {Q : Unit → World Vault → Prop} {E : VaultError → World Vault → Prop} {C : World Vault → Prop}
  {nonce : Nonce} {data data' : VaultData} {disk : Disk} {outcomes : List Outcome} {undo : VaultData → VaultData}

theorem meets_persistOr_error {e : VaultError} (hseal : sealed codec key nonce data' = .error e) (hundo : undo data' = data)
    (hE : E e ⟨⟨data, disk⟩, outcomes⟩) :
    Meets (persistOr codec key nonce undo ⟨⟨data', disk⟩, outcomes⟩) Q E C := by
  unfold persistOr persist
  rw [meets_bind, meets_attempt, meets_bind, meets_get]
  dsimp only
  rw [hseal, meets_bind]
  show E e ⟨⟨undo data', disk⟩, outcomes⟩
  rw [hundo]
  exact hE

/-- What a mutation that writes `bytes` comes to. -/
structure Writes (vault : Vault) (outcomes : List Outcome) (data' : VaultData) (bytes : List UInt8)
    (Q : Unit → World Vault → Prop) (E : VaultError → World Vault → Prop) (C : World Vault → Prop) : Prop where
  done : Goes (preparations vault.disk + 1) outcomes → ∀ w : World Vault, w.state.data = data' →
    w.state.disk.path = some bytes → Q () w
  failed : ∀ e, ∀ w : World Vault, w.state.data = vault.data → Remains vault outcomes false w.state → E e w
  finished : Goes (preparations vault.disk + 1) outcomes → ∀ w : World Vault, w.state.disk.path = some bytes → C w
  crashed : ∀ w : World Vault, Remains vault outcomes true w.state → C w

theorem meets_persistOr {bytes : List UInt8} (hseal : sealed codec key nonce data' = .ok bytes) (hundo : undo data' = data)
    (h : Writes ⟨data, disk⟩ outcomes data' bytes Q E C) :
    Meets (persistOr codec key nonce undo ⟨⟨data', disk⟩, outcomes⟩) Q E C := by
  unfold persistOr persist
  rw [meets_bind, meets_attempt, meets_bind, meets_get]
  dsimp only
  rw [hseal, meets_bind]
  refine (meets_atomicReplace bytes ⟨data', disk⟩ outcomes).mono ?_ ?_ ?_
  · rintro _ w ⟨hgoes, hdata, hpath⟩
    exact h.done hgoes w hdata hpath
  · rintro e w ⟨hdata, hremains⟩
    refine h.failed e _ ?_ ⟨hremains.stops, hremains.survivor, hremains.bare⟩
    show undo w.state.data = data
    rw [hdata]
    exact hundo
  · rintro w (⟨hgoes, hpath⟩ | hremains)
    · exact h.finished hgoes w hpath
    · exact h.crashed w ⟨hremains.stops, hremains.survivor, hremains.bare⟩

/-- A mutation that writes nothing changes nothing. -/
theorem meets_mutate_none {mutation : Mutation} (hfile : mutation.file codec key nonce data = none)
    (hQ : mutation.apply data = data → ∀ outcomes, Q () ⟨⟨data, disk⟩, outcomes⟩)
    (hE : ∀ e outcomes, E e ⟨⟨data, disk⟩, outcomes⟩) :
    Meets (mutate codec key nonce mutation ⟨⟨data, disk⟩, outcomes⟩) Q E C := by
  have hseal : mutation.persists data = true → ∃ e, sealed codec key nonce (mutation.apply data) = .error e := by
    intro hpersists
    unfold Mutation.file at hfile
    rw [if_pos hpersists] at hfile
    cases hsealed : sealed codec key nonce (mutation.apply data) with
    | error e => exact ⟨e, rfl⟩
    | ok bytes =>
      rw [hsealed] at hfile
      exact nomatch hfile
  cases mutation with
  | save secretRef value =>
    unfold mutate save
    dsimp only
    rw [meets_bind, meets_get]
    dsimp only
    rw [meets_bind]
    cases hcheck : checkSave secretRef value data with
    | error e => exact hE e outcomes
    | ok _ =>
      obtain ⟨e, hsealed⟩ := hseal (isOk_iff.mpr hcheck)
      exact meets_persistOr_error hsealed (putBackValue_insert data secretRef value) (hE e outcomes)
  | delete secretRef =>
    unfold mutate delete
    dsimp only
    rw [meets_bind, meets_bind]
    cases hcheck : validateRef secretRef with
    | error e => exact hE e outcomes
    | ok _ =>
      rw [meets_ofExcept_ok, meets_bind, meets_get]
      dsimp only
      cases hprevious : data[secretRef]? with
      | none =>
        refine hQ (ExtTreeMap.ext_getElem? fun k => ?_) outcomes
        unfold Mutation.apply
        dsimp only
        rw [ExtTreeMap.getElem?_erase]
        split
        case isTrue heq =>
          obtain rfl := LawfulEqCmp.eq_of_compare heq
          exact hprevious.symm
        case isFalse => rfl
      | some previous =>
        have hpersists : (Mutation.delete secretRef).persists data = true := by
          unfold Mutation.persists
          dsimp only
          rw [hcheck, contains_of_getElem? hprevious]
          rfl
        obtain ⟨e, hsealed⟩ := hseal hpersists
        dsimp only
        rw [meets_bind, setData, meets_modify, meets_bind]
        exact meets_persistOr_error hsealed (putBackValue_erase hprevious) (hE e outcomes)

theorem meets_mutate {mutation : Mutation} {bytes : List UInt8} (hfile : mutation.file codec key nonce data = some bytes)
    (h : Writes ⟨data, disk⟩ outcomes (mutation.apply data) bytes Q E C) :
    Meets (mutate codec key nonce mutation ⟨⟨data, disk⟩, outcomes⟩) Q E C := by
  unfold Mutation.file at hfile
  split at hfile
  case isFalse => exact nomatch hfile
  case isTrue hpersists =>
    have hseal : sealed codec key nonce (mutation.apply data) = .ok bytes := by
      cases hsealed : sealed codec key nonce (mutation.apply data) with
      | error e =>
        rw [hsealed] at hfile
        exact nomatch hfile
      | ok bytes' =>
        rw [hsealed] at hfile
        exact congrArg Except.ok (Option.some.inj hfile)
    cases mutation with
    | save secretRef value =>
      unfold mutate save
      dsimp only
      rw [meets_bind, meets_get]
      dsimp only
      rw [meets_bind, isOk_iff.mp hpersists]
      exact meets_persistOr hseal (putBackValue_insert data secretRef value) h
    | delete secretRef =>
      obtain ⟨hcheck, hcontains⟩ := Bool.and_eq_true_iff.mp hpersists
      obtain ⟨previous, hprevious⟩ := Option.isSome_iff_exists.mp (ExtTreeMap.isSome_getElem?_eq_contains.trans hcontains)
      unfold mutate delete
      dsimp only
      rw [meets_bind, meets_bind, isOk_iff.mp hcheck, meets_ofExcept_ok, meets_bind, meets_get]
      dsimp only
      rw [hprevious]
      dsimp only
      rw [meets_bind, setData, meets_modify, meets_bind]
      exact meets_persistOr hseal (putBackValue_erase hprevious) h

end

/-! ## Runs -/

/-- The files, the entries of the running process, those of the last mutation that succeeded, and those of the
mutation that a crash cut short. -/
structure System where
  disk : Disk
  memory : Option VaultData
  entries : VaultData
  pending : Option VaultData

inductive Step
  | mutate (mutation : Mutation) (nonce : Nonce) (outcomes : List Outcome)
  | restart (outcomes : List Outcome)

variable (codec key) in
def step (s : System) : Step → System
  | .mutate mutation nonce outcomes =>
    match s.memory with
    | none => s
    | some data =>
      match mutate codec key nonce mutation ⟨⟨data, s.disk⟩, outcomes⟩ with
      | (.ok _, w) => ⟨w.state.disk, some w.state.data, mutation.apply s.entries, none⟩
      | (.error _, w) => ⟨w.state.disk, some w.state.data, s.entries, none⟩
      | (.crash, w) => ⟨w.state.disk, none, s.entries, some (mutation.apply s.entries)⟩
  | .restart outcomes =>
    match openVault codec key ⟨⟨∅, s.disk⟩, outcomes⟩ with
    | (.ok _, w) => ⟨w.state.disk, some w.state.data, w.state.data, none⟩
    | (.error _, w) => { s with disk := w.state.disk, memory := none }
    | (.crash, w) => { s with disk := w.state.disk, memory := none }

/-- Files that open, before the first start. -/
def start (disk : Disk) (data : VaultData) : System := ⟨disk, none, data, none⟩

variable (codec key) in
/-- The next start succeeds, with the entries of the last mutation that succeeded or of the one in progress, and
these are the entries of the running process. -/
def Survives (s : System) : Prop :=
  ∃ data, Opens codec key s.disk data ∧ (data = s.entries ∨ s.pending = some data) ∧
    ∀ data', s.memory = some data' → data' = data

/-- A file that the step puts in place can be opened; and where the only file is the backup, which the step has
removed, the step gets its own file into place, or nothing is lost with the backup. -/
def SoundWrite (disk : Disk) (outcomes : List Outcome) (data data' : VaultData) (bytes : List UInt8) : Prop :=
  if Goes (preparations disk + 1) outcomes then bytes.length ≤ maxVaultBytes
  else Goes (preparations disk) outcomes → disk.path = none → disk.backup ≠ none →
    data = ∅ ∨ data' = ∅ ∧ .crashed ∈ (outcomes.drop (preparations disk)).take 2

variable (codec key) in
def Sound (s : System) : Step → Prop
  | .mutate mutation nonce outcomes =>
    ∀ data bytes, s.memory = some data → mutation.file codec key nonce data = some bytes →
      SoundWrite s.disk outcomes data (mutation.apply data) bytes
  | .restart _ => True

/-- The ghost entries are those of the running process. -/
structure Agrees (s : System) : Prop where
  entries : ∀ data, s.memory = some data → s.entries = data
  pending : ∀ data, s.memory = some data → s.pending = none

/-- What a run of a mutation makes of the system. -/
def afterMutate (s : System) (mutation : Mutation) : Result VaultError Unit × World Vault → System
  | (.ok _, w) => ⟨w.state.disk, some w.state.data, mutation.apply s.entries, none⟩
  | (.error _, w) => ⟨w.state.disk, some w.state.data, s.entries, none⟩
  | (.crash, w) => ⟨w.state.disk, none, s.entries, some (mutation.apply s.entries)⟩

variable {s : System}

theorem afterMutate_of_meets {P : System → Prop}
    {run : Result VaultError Unit × World Vault}
    (h : Meets run (fun _ w => P ⟨w.state.disk, some w.state.data, mutation.apply s.entries, none⟩)
      (fun _ w => P ⟨w.state.disk, some w.state.data, s.entries, none⟩)
      (fun w => P ⟨w.state.disk, none, s.entries, some (mutation.apply s.entries)⟩)) : P (afterMutate s mutation run) := by
  obtain ⟨value | e | _, w⟩ := run <;> exact h

theorem step_mutate (h : s.memory = some data) (mutation : Mutation) (nonce : Nonce)
    (outcomes : List Outcome) : step codec key s (.mutate mutation nonce outcomes) =
      afterMutate s mutation (mutate codec key nonce mutation ⟨⟨data, s.disk⟩, outcomes⟩) := by
  unfold step
  dsimp only
  rw [h]
  rfl

theorem survives_iff : Survives codec key s ↔ ∃ data, read codec key (current s.disk) = .ok data ∧
    (data = s.entries ∨ s.pending = some data) ∧ ∀ data', s.memory = some data' → data' = data := by
  unfold Survives
  simp only [opens_iff]

/-- The step has removed the only file. -/
def Lost (disk : Disk) (outcomes : List Outcome) : Prop :=
  Goes (preparations disk) outcomes ∧ disk.path = none ∧ disk.backup ≠ none

theorem survivor_cases (disk : Disk) (outcomes : List Outcome) :
    (Lost disk outcomes ∧ survivor disk outcomes = none) ∨ (¬Lost disk outcomes ∧ survivor disk outcomes = current disk) := by
  unfold Lost survivor current
  split
  case isFalse hstop => exact .inr ⟨fun h => hstop h.1, rfl⟩
  case isTrue hgoes =>
    rcases disk with ⟨_ | file, _ | old, temporary⟩
    · exact .inr ⟨fun h => h.2.2 rfl, rfl⟩
    · exact .inl ⟨⟨hgoes, rfl, nofun⟩, rfl⟩
    · exact .inr ⟨fun h => (nomatch h.2.1), rfl⟩
    · exact .inr ⟨fun h => (nomatch h.2.1), rfl⟩

theorem file_eq_some (h : mutation.file codec key nonce data = some bytes) :
    mutation.persists data = true ∧ sealed codec key nonce (mutation.apply data) = .ok bytes := by
  unfold Mutation.file at h
  split at h
  case isFalse => exact nomatch h
  case isTrue hpersists =>
    refine ⟨hpersists, ?_⟩
    cases hsealed : sealed codec key nonce (mutation.apply data) with
    | error e =>
      rw [hsealed] at h
      exact nomatch h
    | ok bytes' =>
      rw [hsealed] at h
      exact congrArg Except.ok (Option.some.inj h)

section
variable {s s' : System} {data data' : VaultData} {outcomes : List Outcome} {bytes : List UInt8} {nonce : Nonce}

/-- The new file is in place. -/
theorem survives_of_done (hcodec : codec.Correct) (hseal : sealed codec key nonce data' = .ok bytes)
    (hvalid : validateData data' = .ok ()) (hgoes : Goes (preparations s.disk + 1) outcomes) (hpath : s'.disk.path = some bytes)
    (hallowed : data' = s'.entries ∨ s'.pending = some data') (hmemory : ∀ data'', s'.memory = some data'' → data'' = data') :
    Survives codec key s' ↔ SoundWrite s.disk outcomes data data' bytes := by
  have hcurrent : current s'.disk = some bytes := by
    unfold current
    rw [hpath, Option.some_or]
  rw [survives_iff, hcurrent, SoundWrite, if_pos hgoes]
  constructor
  · rintro ⟨data'', hread, -⟩
    exact ((read_sealed hcodec hseal hvalid data'').mp hread).2
  · intro hsize
    exact ⟨data', (read_sealed hcodec hseal hvalid data').mpr ⟨rfl, hsize⟩, hallowed, hmemory⟩

theorem soundWrite_of_remains {vault : Vault} {crashes : Bool} {vault' : Vault} (h : Remains vault outcomes crashes vault') :
    SoundWrite vault.disk outcomes data data' bytes ↔ (Lost vault.disk outcomes → data = ∅ ∨ data' = ∅ ∧ crashes = true) := by
  unfold SoundWrite
  rw [if_neg h.stops]
  constructor
  · intro hsound hlost
    exact (hsound hlost.1 hlost.2.1 hlost.2.2).imp_right (And.imp_right (h.bare hlost.1 hlost.2.1).mpr)
  · intro hsound hgoes hpath hbackup
    exact (hsound ⟨hgoes, hpath, hbackup⟩).imp_right (And.imp_right (h.bare hgoes hpath).mp)

/-- The former file is left, or nothing. -/
theorem survives_of_remains {vault : Vault} {crashes : Bool} {vault' : Vault} (hread : read codec key (current vault.disk) = .ok data)
    (h : Remains vault outcomes crashes vault') (hdisk : s'.disk = vault'.disk)
    (hallowed : ∀ data'', (data'' = s'.entries ∨ s'.pending = some data'') ↔ data'' = data ∨ data'' = data' ∧ crashes = true)
    (hmemory : ∀ data'', s'.memory = some data'' → data'' = data ∧ crashes = false) :
    Survives codec key s' ↔ SoundWrite vault.disk outcomes data data' bytes := by
  rw [survives_iff, hdisk, h.survivor, soundWrite_of_remains h]
  obtain ⟨hlost, hnone⟩ | ⟨hkept, hcurrent⟩ := survivor_cases vault.disk outcomes
  · rw [hnone]
    constructor
    · rintro ⟨data'', hread', hdata'', -⟩ -
      obtain rfl := Except.ok.inj (hread'.symm.trans readFile_none)
      exact ((hallowed ∅).mp hdata'').imp Eq.symm (And.imp_left Eq.symm)
    · intro hsound
      have hempty := hsound hlost
      refine ⟨∅, readFile_none, (hallowed ∅).mpr (hempty.imp Eq.symm (And.imp_left Eq.symm)), fun data'' hdata'' => ?_⟩
      obtain ⟨rfl, hcrashes⟩ := hmemory data'' hdata''
      refine hempty.resolve_right fun hboth => ?_
      rw [hcrashes] at hboth
      exact nomatch hboth.2
  · rw [hcurrent]
    constructor
    · intro _ hlost
      exact absurd hlost hkept
    · intro _
      exact ⟨data, hread, (hallowed data).mpr (.inl rfl), fun data'' hdata'' => (hmemory data'' hdata'').1⟩

end

/-- With a file to write, the system after the step opens exactly where the step was sound. -/
theorem survives_mutate (hcodec : codec.Correct) (hmemory : s.memory = some data)
    (hentries : s.entries = data) (hread : read codec key (current s.disk) = .ok data)
    (hfile : mutation.file codec key nonce data = some bytes) (outcomes : List Outcome) :
    Agrees (step codec key s (.mutate mutation nonce outcomes)) ∧
      (Survives codec key (step codec key s (.mutate mutation nonce outcomes)) ↔
        SoundWrite s.disk outcomes data (mutation.apply data) bytes) := by
  obtain ⟨hpersists, hseal⟩ := file_eq_some hfile
  have hvalid := validateData_apply hpersists (read_eq_ok.mp hread).2
  rw [step_mutate hmemory]
  refine afterMutate_of_meets (P := fun s' => Agrees s' ∧ (Survives codec key s' ↔
    SoundWrite s.disk outcomes data (mutation.apply data) bytes)) (meets_mutate hfile ⟨?_, ?_, ?_, ?_⟩)
  · intro hgoes w hdata hpath
    refine ⟨⟨fun data' hdata' => ?_, fun _ _ => rfl⟩, ?_⟩
    · rw [← Option.some.inj hdata', hdata, hentries]
    · refine survives_of_done hcodec hseal hvalid hgoes hpath (.inl (by rw [hentries])) fun data' hdata' => ?_
      rw [← Option.some.inj hdata', hdata]
  · intro e w hdata hremains
    refine ⟨⟨fun data' hdata' => ?_, fun _ _ => rfl⟩, ?_⟩
    · rw [← Option.some.inj hdata', hdata, hentries]
    · refine survives_of_remains hread hremains rfl (fun data' => ?_) fun data' hdata' => ⟨?_, rfl⟩
      · rw [hentries]
        constructor
        · rintro (h | h)
          · exact .inl h
          · exact nomatch h
        · rintro (h | h)
          · exact .inl h
          · exact nomatch h.2
      · rw [← Option.some.inj hdata', hdata]
  · intro hgoes w hpath
    refine ⟨⟨fun _ h => (nomatch h), fun _ h => (nomatch h)⟩, ?_⟩
    exact survives_of_done hcodec hseal hvalid hgoes hpath (.inr (by rw [hentries])) fun _ h => nomatch h
  · intro w hremains
    refine ⟨⟨fun _ h => (nomatch h), fun _ h => (nomatch h)⟩, ?_⟩
    refine survives_of_remains hread hremains rfl (fun data' => ?_) fun _ h => nomatch h
    rw [hentries, Option.some.injEq, and_iff_left rfl]
    exact or_congr_right eq_comm

/-- Without a file to write, nothing changes. -/
theorem survives_mutate_none (hmemory : s.memory = some data) (hentries : s.entries = data)
    (hread : read codec key (current s.disk) = .ok data)
    (hfile : mutation.file codec key nonce data = none) (outcomes : List Outcome) :
    Agrees (step codec key s (.mutate mutation nonce outcomes)) ∧
      Survives codec key (step codec key s (.mutate mutation nonce outcomes)) := by
  rw [step_mutate hmemory]
  refine afterMutate_of_meets (P := fun s' => Agrees s' ∧ Survives codec key s') (meets_mutate_none hfile (fun happly outcomes => ?_) fun e outcomes => ?_)
  · rw [hentries, happly]
    refine ⟨⟨fun data' hdata' => Option.some.inj hdata', fun _ _ => rfl⟩, survives_iff.mpr ?_⟩
    exact ⟨data, hread, .inl rfl, fun data' hdata' => (Option.some.inj hdata').symm⟩
  · rw [hentries]
    refine ⟨⟨fun data' hdata' => Option.some.inj hdata', fun _ _ => rfl⟩, survives_iff.mpr ?_⟩
    exact ⟨data, hread, .inl rfl, fun data' hdata' => (Option.some.inj hdata').symm⟩

/-- A restart, whether or not it succeeds. -/
theorem survives_restart (h : Survives codec key s) (outcomes : List Outcome) :
    Agrees (step codec key s (.restart outcomes)) ∧ Survives codec key (step codec key s (.restart outcomes)) := by
  obtain ⟨data, hread, hallowed, -⟩ := survives_iff.mp h
  have hopen := @meets_openVault codec key ⟨∅, s.disk⟩ outcomes
  unfold step
  dsimp only
  rcases hrun : openVault codec key ⟨⟨∅, s.disk⟩, outcomes⟩ with ⟨value | e | _, w⟩ <;> rw [hrun] at hopen
  · obtain ⟨hcurrent, hread'⟩ := hopen
    refine ⟨⟨fun data' hdata' => Option.some.inj hdata', fun _ _ => rfl⟩, survives_iff.mpr ?_⟩
    refine ⟨w.state.data, ?_, .inl rfl, fun data' hdata' => (Option.some.inj hdata').symm⟩
    show read codec key (current w.state.disk) = _
    rw [hcurrent]
    exact hread'
  · refine ⟨⟨fun _ h => (nomatch h), fun _ h => (nomatch h)⟩, survives_iff.mpr ⟨data, ?_, hallowed, fun _ h => (nomatch h)⟩⟩
    show read codec key (current w.state.disk) = _
    rw [hopen.1]
    exact hread
  · refine ⟨⟨fun _ h => (nomatch h), fun _ h => (nomatch h)⟩, survives_iff.mpr ⟨data, ?_, hallowed, fun _ h => (nomatch h)⟩⟩
    show read codec key (current w.state.disk) = _
    rw [hopen.1]
    exact hread

/-- A step from a system that survives leads to one exactly if it is sound. -/
theorem survives_step (hcodec : codec.Correct) (hagrees : Agrees s) (h : Survives codec key s) (op : Step) :
    Agrees (step codec key s op) ∧ (Survives codec key (step codec key s op) ↔ Sound codec key s op) := by
  cases op with
  | restart outcomes =>
    have hrestart := survives_restart h outcomes
    exact ⟨hrestart.1, iff_of_true hrestart.2 trivial⟩
  | mutate mutation nonce outcomes =>
    cases hmemory : s.memory with
    | none =>
      have hstep : step codec key s (.mutate mutation nonce outcomes) = s := by
        unfold step
        dsimp only
        rw [hmemory]
      rw [hstep]
      refine ⟨hagrees, iff_of_true h fun data bytes hdata => ?_⟩
      rw [hmemory] at hdata
      exact nomatch hdata
    | some data =>
      obtain ⟨data', hread, -, hdata'⟩ := survives_iff.mp h
      obtain rfl := hdata' data hmemory
      have hentries := hagrees.entries data hmemory
      cases hfile : mutation.file codec key nonce data with
      | none =>
        have hmutate := survives_mutate_none hmemory hentries hread hfile outcomes
        refine ⟨hmutate.1, iff_of_true hmutate.2 fun data' bytes hdata' hbytes => ?_⟩
        rw [hmemory] at hdata'
        obtain rfl := Option.some.inj hdata'
        rw [hfile] at hbytes
        exact nomatch hbytes
      | some bytes =>
        have hmutate := survives_mutate hcodec hmemory hentries hread hfile outcomes
        refine ⟨hmutate.1, hmutate.2.trans ⟨fun hsound data' bytes' hdata' hbytes' => ?_, fun hsound => hsound data bytes hmemory hfile⟩⟩
        rw [hmemory] at hdata'
        obtain rfl := Option.some.inj hdata'
        rw [hfile] at hbytes'
        obtain rfl := Option.some.inj hbytes'
        exact hsound

/-- From files that open, every state of a run survives exactly if all its steps are sound. -/
theorem vault_survives (hcodec : codec.Correct) {disk : Disk} {data : VaultData} (hopen : Opens codec key disk data)
    (ops : List Step) :
    (∀ before after, ops = before ++ after → Survives codec key (run (step codec key) (start disk data) before)) ↔
      StepsMeet (step codec key) (Sound codec key) (start disk data) ops := by
  have hnone : ∀ data', (start disk data).memory ≠ some data' := fun _ => nofun
  refine StepsMeet.always_iff (I := Agrees) (fun s op hagrees h => survives_step hcodec hagrees h op) ?_ ?_ ops
  · exact ⟨fun _ h => absurd h (hnone _), fun _ h => absurd h (hnone _)⟩
  · exact ⟨data, hopen, .inl rfl, fun _ h => absurd h (hnone _)⟩

end

/-! ## A codec for examples

The text is JSON for strings of printable characters. -/

def escaped (s : List Char) : List Char := s.flatMap fun c => if c = '"' ∨ c = '\\' then ['\\', c] else [c]

/-- The rest of a string and what follows it. -/
def unquote : List Char → Option (List Char × List Char)
  | [] => none
  | '"' :: text => some ([], text)
  | '\\' :: c :: text => (unquote text).map fun (s, text) => (c :: s, text)
  | c :: text => (unquote text).map fun (s, text) => (c :: s, text)

def entriesText : List (String × String) → List Char
  | [] => ['\x7d', '\x7d']
  | entry :: entries =>
    '"' :: (escaped entry.1.toList ++ '"' :: ':' :: '"' :: (escaped entry.2.toList ++ '"' ::
      (if entries = [] then [] else [',']) ++ entriesText entries))

/-- Reads what `entriesText` wrote. -/
def readEntries : Nat → List Char → Option (List (String × String))
  | n + 1, '"' :: text => do
    let (secretRef, text) ← unquote text
    let (value, text) ← unquote (text.drop 2)
    let entries ← readEntries n (if text.head? = some ',' then text.tail else text)
    some ((String.ofList secretRef, String.ofList value) :: entries)
  | _, text => if text = ['\x7d', '\x7d'] then some [] else none

def valuesText : List Char := "\x7b\"values\":\x7b".toList

def sampleCodec : Codec where
  toVec data := (valuesText ++ entriesText data.toList).flatMap String.utf8EncodeChar
  fromSlice bytes := do
    let text ← bytes.toByteArray.utf8Decode?
    let entries ← readEntries text.size (text.toList.drop valuesText.length)
    some (ExtTreeMap.ofList entries)
  encrypt _ _ plaintext := some (plaintext ++ List.replicate tagBytes 0)
  decrypt _ _ ciphertext := some (ciphertext.take (ciphertext.length - tagBytes))

theorem unquote_escaped (s rest : List Char) : unquote (escaped s ++ '"' :: rest) = some (s, rest) := by
  induction s with
  | nil => rfl
  | cons c s ih =>
    unfold escaped
    rw [List.flatMap_cons]
    split
    case isTrue hspecial =>
      show unquote ('\\' :: c :: (escaped s ++ '"' :: rest)) = _
      rw [unquote, ih]
      rfl
    case isFalse hplain =>
      obtain ⟨hquote, hbackslash⟩ := not_or.mp hplain
      show unquote (c :: (escaped s ++ '"' :: rest)) = _
      rw [unquote, ih]
      · rfl
      · exact hquote
      · exact fun _ _ h _ => hbackslash h

theorem readEntries_entriesText (entries : List (String × String)) {n : Nat} (hn : entries.length ≤ n) :
    readEntries n (entriesText entries) = some entries := by
  induction entries generalizing n with
  | nil => cases n <;> rfl
  | cons entry entries ih =>
    obtain ⟨n, rfl⟩ := Nat.exists_eq_add_of_le' (Nat.le_trans (Nat.le_add_left 1 entries.length) hn)
    have hseparator : ∀ text, (if (((if entries = [] then [] else [',']) ++ entriesText entries).head? = some ',') then
          ((if entries = [] then [] else [',']) ++ entriesText entries).tail
        else (if entries = [] then [] else [',']) ++ entriesText entries) = text → text = entriesText entries := by
      rintro text rfl
      cases entries <;> rfl
    rw [entriesText, readEntries, unquote_escaped]
    simp only [Option.bind_eq_bind, Option.bind_some, List.drop_succ_cons, List.drop_zero, List.append_assoc,
      List.cons_append]
    rw [unquote_escaped, Option.bind_some]
    dsimp only
    rw [hseparator _ rfl, ih (Nat.le_of_succ_le_succ hn), Option.bind_some, String.ofList_toList, String.ofList_toList]

theorem length_le_entriesText (entries : List (String × String)) : entries.length ≤ (entriesText entries).length := by
  induction entries with
  | nil => exact Nat.zero_le _
  | cons entry entries ih =>
    rw [entriesText]
    simp only [List.length_cons, List.length_append]
    omega

theorem ofList_toList (data : VaultData) : ExtTreeMap.ofList data.toList compare = data := by
  refine ExtTreeMap.ext_getElem? fun k => ?_
  cases hvalue : data[k]? with
  | some value =>
    exact ExtTreeMap.getElem?_ofList_of_mem ReflCmp.compare_self data.distinct_keys_toList
      (ExtTreeMap.mem_toList_iff_getElem?_eq_some.mpr hvalue)
  | none =>
    refine ExtTreeMap.getElem?_ofList_of_contains_eq_false ?_
    refine Bool.eq_false_iff.mpr fun hcontains => ?_
    obtain ⟨entry, hmem, rfl⟩ := List.mem_map.mp (List.contains_iff_mem.mp hcontains)
    rw [ExtTreeMap.mem_toList_iff_getElem?_eq_some.mp (show (entry.1, entry.2) ∈ data.toList from hmem)] at hvalue
    exact nomatch hvalue

theorem sampleCodec_correct : sampleCodec.Correct where
  reads data := by
    have hdecode : (sampleCodec.toVec data).toByteArray.utf8Decode? = some (valuesText ++ entriesText data.toList).toArray :=
      List.utf8Decode?_utf8Encode
    show (sampleCodec.toVec data).toByteArray.utf8Decode? >>= _ = _
    rw [hdecode, Option.bind_eq_bind, Option.bind_some, List.drop_left, readEntries_entriesText]
    · rw [Option.bind_eq_bind, Option.bind_some, ofList_toList]
    · rw [List.size_toArray, List.length_append]
      exact Nat.le_add_left_of_le (length_le_entriesText data.toList)
  decrypts key nonce plaintext ciphertext h := by
    obtain rfl := Option.some.inj h
    show some _ = _
    rw [List.length_append, List.length_replicate, Nat.add_sub_cancel, List.take_left]
  tagged key nonce plaintext ciphertext h := by
    obtain rfl := Option.some.inj h
    rw [List.length_append, List.length_replicate]

def sampleKey : Key := Vector.replicate 32 0

def sampleNonce : Nonce := Vector.replicate nonceBytes 0

/-- A mutation that cannot be written. -/
theorem vault_survives_sample :
    [Step.restart [], .mutate (.save "a" "x") sampleNonce [.done, .failed]].inits.Forall fun before =>
      Survives sampleCodec sampleKey (run (step sampleCodec sampleKey) (start ⟨none, none, none⟩ ∅) before) := by
  refine List.forall_iff_forall_mem.mpr fun before hmem => ?_
  obtain ⟨after, heq⟩ := (List.mem_inits _ _).mp hmem
  refine (vault_survives sampleCodec_correct (opens_iff.mpr readFile_none) _).mpr ?_ before after heq.symm
  refine ⟨trivial, fun data bytes _ _ => ?_, trivial⟩
  have hstop : ∀ n, 2 ≤ n → ¬Goes n [.done, .failed] := by
    intro n hn hgoes
    refine absurd (hgoes .failed ?_) nofun
    rw [List.take_of_length_le (by exact hn)]
    exact List.mem_cons_of_mem _ List.mem_cons_self
  have hcount : ∀ disk, 3 ≤ preparations disk := fun disk => by
    unfold preparations
    rw [Nat.add_assoc]
    exact Nat.le_add_right _ _
  unfold SoundWrite
  rw [if_neg (hstop _ (Nat.le_trans (by decide) (Nat.le_add_right_of_le (hcount _))))]
  exact fun hgoes => absurd hgoes (hstop _ (Nat.le_trans (by decide) (hcount _)))

/-- The new file cannot be renamed into place and the former one cannot be put back; the next mutation removes the
backup and stops. The vault is empty. -/
def lostRun : List Step :=
  [.restart [], .mutate (.save "a" "x") sampleNonce [],
    .mutate (.save "b" "y") sampleNonce [.done, .done, .done, .done, .failed, .failed],
    .mutate (.save "c" "z") sampleNonce [.done, .done, .done, .done, .crashed]]

theorem vault_lost : ¬Survives sampleCodec sampleKey (run (step sampleCodec sampleKey) (start ⟨none, none, none⟩ ∅) lostRun) := by
  intro h
  obtain ⟨data, hread, hallowed, -⟩ := survives_iff.mp h
  have hnone : current (run (step sampleCodec sampleKey) (start ⟨none, none, none⟩ ∅) lostRun).disk = none := by
    decide
  rw [hnone] at hread
  obtain rfl := Except.ok.inj (hread.symm.trans readFile_none)
  have hentries : (run (step sampleCodec sampleKey) (start ⟨none, none, none⟩ ∅) lostRun).entries.size = 1 := by
    decide
  have hpending : (run (step sampleCodec sampleKey) (start ⟨none, none, none⟩ ∅) lostRun).pending.map (·.size) = some 2 := by
    decide
  rcases hallowed with hempty | hempty
  · rw [← hempty] at hentries
    exact absurd hentries (by decide)
  · rw [hempty] at hpending
    exact absurd hpending (by decide)

end Zenith.VaultStore
