import Zenith.Lib.Parts
import Zenith.Lib.Runs
import Zenith.Secrets.Atomicity
import Zenith.Secrets.VaultCrashes

/-!
# Secrets in the vault and in the keyring before it

`store/secret_store.rs`. A secret is in the vault. One from before there was a vault may be in the keyring, in up to
four entries: under the hash of its reference or the reference itself, in the present service or in the former one.
Loading takes it over into the vault; saving, taking over and deleting clear the entries.

Where the entries cannot be cleared, older values stay behind, and the vault covers them. They stay gone where a
deletion clears the entries (`superseded_secrets_stay_gone`), and `superseded_secret_resurfaces` is the other case.

The digest of a reference and the codecs of the two stores are not in the repository.
`History` keeps what the source does not: the last value of each secret.
-/

namespace Zenith.SecretStore

open Std Zenith.Faults Zenith.Runs Zenith.Secrets Zenith.Tables Zenith.Text

/-! ## Named secrets -/

def keyringService : String := "Zenith Relay"

def legacyKeyringService : String := "Zenith Codex"

section
variable (codec : Secrets.Codec)

def saveNamedSecret (generation user value : String) : KeyringOp Unit :=
  saveToService codec generation keyringService user value

/-- A secret of the former service is saved in the present one. -/
def loadNamedSecretResult (generation user : String) : KeyringOp (Option String) := do
  match ← loadSecretFromService codec keyringService user with
  | some value => return some value
  | none =>
    match ← loadSecretFromService codec legacyKeyringService user with
    | none => return none
    | some value =>
      match ← (saveToService codec generation keyringService user value).attempt with
      | .ok _ => Secrets.ignore (deleteSecretFromService codec legacyKeyringService user)
      | .error _ => pure ()
      return some value

/-- Both operations are tried, and the first error is the result. -/
def both (first second : KeyringOp Unit) : KeyringOp Unit := do
  let current ← first.attempt
  let legacy ← second.attempt
  Op.ofExcept current
  Op.ofExcept legacy

def deleteNamedSecretResult (user : String) : KeyringOp Unit :=
  both (deleteSecretFromService codec keyringService user) (deleteSecretFromService codec legacyKeyringService user)

end

/-! ## The keyring entries of a secret -/

def secretPrefix : String := "local-pool:"

def hashedSecretPrefix : String := "lp:"

/-- What the store is opened with. -/
structure Setup where
  keyring : Secrets.Codec
  vault : VaultStore.Codec
  key : VaultStore.Key
  digest : String → String

section
variable (setup : Setup)

def Setup.keyringUser (secretRef : String) : String := hashedSecretPrefix ++ setup.digest secretRef

def legacyKeyringUser (secretRef : String) : String := secretPrefix ++ secretRef

def loadKeyringSecret (generation secretRef : String) : KeyringOp (Option String) := do
  match ← loadNamedSecretResult setup.keyring generation (setup.keyringUser secretRef) with
  | some value => return some value
  | none =>
    match ← loadNamedSecretResult setup.keyring generation (legacyKeyringUser secretRef) with
    | none => return none
    | some value => do
      saveNamedSecret setup.keyring generation (setup.keyringUser secretRef) value
      deleteNamedSecretResult setup.keyring (legacyKeyringUser secretRef)
      return some value

def deleteKeyringSecret (secretRef : String) : KeyringOp Unit :=
  both (deleteNamedSecretResult setup.keyring (setup.keyringUser secretRef))
    (deleteNamedSecretResult setup.keyring (legacyKeyringUser secretRef))

/-! ## The store -/

structure Stores where
  vault : VaultStore.Vault
  keyring : Keyring

inductive StoreError
  | invalidRef
  | emptyValue
  | vault (e : VaultStore.VaultError)
  | keyring (e : KeyringError)
deriving DecidableEq, Repr

abbrev StoreOp := Op Stores StoreError

def onVault {α : Type} (op : VaultStore.VaultOp α) : StoreOp α :=
  op.on ⟨Stores.vault, fun vault stores => { stores with vault }⟩ .vault

def onKeyring {α : Type} (op : KeyringOp α) : StoreOp α :=
  op.on ⟨Stores.keyring, fun keyring stores => { stores with keyring }⟩ .keyring

/-- The vault has the same rule for references. -/
def validateSecretRef (secretRef : String) : Except StoreError Unit :=
  if (VaultStore.validateRef secretRef).isOk then .ok () else .error .invalidRef

/-- `let _ = delete_keyring_secret(…)`. -/
def clearKeyring (secretRef : String) : StoreOp Unit := onKeyring (Secrets.ignore (deleteKeyringSecret setup secretRef))

def save (nonce : VaultStore.Nonce) (secretRef value : String) : StoreOp Unit := do
  Op.ofExcept (validateSecretRef secretRef)
  if trim value = "" then Op.throw .emptyValue
  else do
    onVault (VaultStore.save setup.vault setup.key nonce secretRef value)
    clearKeyring setup secretRef

def load (nonce : VaultStore.Nonce) (generation secretRef : String) : StoreOp (Option String) := do
  Op.ofExcept (validateSecretRef secretRef)
  match (← Op.get).vault.data[secretRef]? with
  | some value => return some value
  | none =>
    match ← onKeyring (loadKeyringSecret setup generation secretRef) with
    | none => return none
    | some value => do
      onVault (VaultStore.save setup.vault setup.key nonce secretRef value)
      clearKeyring setup secretRef
      return some value

def delete (nonce : VaultStore.Nonce) (secretRef : String) : StoreOp Unit := do
  Op.ofExcept (validateSecretRef secretRef)
  let _ ← onVault (VaultStore.delete setup.vault setup.key nonce secretRef)
  onKeyring (deleteKeyringSecret setup secretRef)

end

/-! ## Absent entries -/

/-- None of the entries has a password. -/
def Absent (entries : List (String × String)) (keyring : Keyring) : Prop := ∀ entry ∈ entries, keyring entry = none

section
variable {codec : Secrets.Codec} {service user generation : String} {I : Keyring → Prop} {entries : List (String × String)}

theorem absent_delete {keyring : Keyring} (h : Absent entries keyring) (entry : String × String) :
    Absent entries (Function.update keyring entry none) := by
  intro other hmem
  rw [Function.update_apply]
  split
  · rfl
  · exact h other hmem

theorem absent_set {keyring : Keyring} (h : Absent entries keyring) {entry : String × String} (hentry : entry ∉ entries)
    (value : Option String) : Absent entries (Function.update keyring entry value) := by
  intro other hmem
  rw [Function.update_of_ne (ne_of_mem_of_not_mem hmem hentry)]
  exact h other hmem

/-! Reading changes nothing. -/

theorem keeps_loadRaw : Keeps I (loadRawFromService service user) :=
  (keeps_write fun _ hkeyring => hkeyring).bind fun _ => keeps_get.bind fun _ => keeps_pure _

theorem keeps_readChunks (indices : List Nat) (value : String) : Keeps I (readChunks service user generation indices value) := by
  induction indices generalizing value with
  | nil => exact keeps_pure value
  | cons index indices ih =>
    refine keeps_loadRaw.bind fun chunk => ?_
    cases chunk with
    | none => exact keeps_throw _
    | some chunk => exact ih _

theorem keeps_loadSecret : Keeps I (loadSecretFromService codec service user) := by
  refine keeps_loadRaw.bind fun stored => ?_
  cases stored with
  | none => exact keeps_pure none
  | some stored =>
    dsimp only
    split
    · refine (keeps_ofExcept _).bind fun manifest => (keeps_readChunks _ _).bind fun value => ?_
      split
      · exact keeps_pure _
      · exact keeps_throw _
    · exact keeps_pure _

theorem keeps_verify (expected : String) (attempts : Nat) (lastError : Option KeyringError) :
    Keeps I (verifyAttempts codec service user expected attempts lastError) := by
  induction attempts generalizing lastError with
  | zero => exact keeps_throw _
  | succ attempts ih =>
    refine keeps_loadSecret.attempt.bind fun value => ?_
    cases value with
    | error e => exact ih _
    | ok value =>
      dsimp only
      split
      · exact keeps_pure ()
      · exact ih none

/-! Deleting leaves absent entries absent, whatever it deletes. -/

theorem keeps_ignore {op : KeyringOp Unit} (h : Keeps I op) : Keeps I (Secrets.ignore op) :=
  h.attempt.bind fun _ => keeps_pure ()

theorem keeps_deleteFromService : Keeps (Absent entries) (deleteFromService service user) :=
  keeps_write fun _ hkeyring => absent_delete hkeyring _

theorem keeps_deleteChunks (indices : List Nat) (firstError : Option KeyringError) :
    Keeps (Absent entries) (deleteChunks service user generation indices firstError) := by
  induction indices generalizing firstError with
  | nil => exact keeps_pure firstError
  | cons index indices ih =>
    refine keeps_deleteFromService.attempt.bind fun deleted => ?_
    cases deleted with
    | ok _ => exact ih _
    | error e => exact ih _

theorem keeps_deleteManifestChunks (manifest : SecretManifest) :
    Keeps (Absent entries) (deleteManifestChunksResult service user manifest) := by
  refine (keeps_deleteChunks _ none).bind fun error => ?_
  cases error with
  | none => exact keeps_pure ()
  | some e => exact keeps_throw e

theorem keeps_deleteSecret : Keeps (Absent entries) (deleteSecretFromService codec service user) := by
  refine keeps_loadRaw.bind fun stored => keeps_deleteFromService.bind fun _ => ?_
  split
  · exact keeps_deleteManifestChunks _
  · exact keeps_pure ()

theorem keeps_deleteWritten (users : List String) : Keeps (Absent entries) (deleteWritten service users) := by
  induction users with
  | nil => exact keeps_pure ()
  | cons user users ih => exact (keeps_ignore keeps_deleteFromService).bind fun _ => ih

/-! Saving sets the entry and those of its chunks. -/

theorem keeps_setPassword (hentry : (service, user) ∉ entries) (value : String) :
    Keeps (Absent entries) (setPassword service user value) :=
  keeps_write fun _ hkeyring => absent_set hkeyring hentry _

theorem keeps_restoreRawSecret (hentry : (service, user) ∉ entries) (previous : Option String) :
    Keeps (Absent entries) (restoreRawSecret service user previous) := by
  cases previous with
  | none => exact keeps_deleteFromService
  | some value => exact keeps_setPassword hentry value

theorem keeps_writeChunks (hchunks : ∀ index, (service, chunkUser user generation index) ∉ entries) (chunks : List String)
    (writtenUsers : List String) : Keeps (Absent entries) (writeChunks service user generation chunks writtenUsers) := by
  induction chunks generalizing writtenUsers with
  | nil => exact keeps_pure writtenUsers
  | cons chunk chunks ih =>
    refine (keeps_setPassword (hchunks _) chunk).attempt.bind fun written => ?_
    cases written with
    | ok _ => exact ih _
    | error e => exact (keeps_deleteWritten _).bind fun _ => keeps_throw e

theorem keeps_saveToService (hentry : (service, user) ∉ entries)
    (hchunks : ∀ index, (service, chunkUser user generation index) ∉ entries) (value : String) :
    Keeps (Absent entries) (saveToService codec generation service user value) := by
  refine keeps_loadRaw.bind fun previousRaw => ?_
  dsimp only
  split
  · refine (keeps_setPassword hentry value).bind fun _ => (keeps_verify _ _ _).attempt.bind fun verified => ?_
    cases verified with
    | error e => exact (keeps_restoreRawSecret hentry previousRaw).bind fun _ => keeps_throw e
    | ok _ =>
      dsimp only
      split
      · exact keeps_ignore (keeps_deleteManifestChunks _)
      · exact keeps_pure ()
  · split
    · exact keeps_throw _
    · refine (keeps_writeChunks hchunks _ []).bind fun writtenUsers => ?_
      refine (keeps_setPassword hentry _).attempt.bind fun written => ?_
      cases written with
      | error e => exact (keeps_deleteWritten writtenUsers).bind fun _ => keeps_throw e
      | ok _ =>
        refine (keeps_verify _ _ _).attempt.bind fun verified => ?_
        cases verified with
        | error e =>
          exact (keeps_restoreRawSecret hentry previousRaw).attempt.bind fun restore =>
            (keeps_ignore (keeps_deleteManifestChunks _)).bind fun _ => (keeps_ofExcept restore).bind fun _ => keeps_throw e
        | ok _ =>
          dsimp only
          split
          · exact keeps_ignore (keeps_deleteManifestChunks _)
          · exact keeps_pure ()

end

/-! ## The entries of a secret -/

/-- In the order in which they are deleted. -/
def Setup.entriesOf (setup : Setup) (secretRef : String) : List (String × String) :=
  [(keyringService, setup.keyringUser secretRef), (legacyKeyringService, setup.keyringUser secretRef),
    (keyringService, legacyKeyringUser secretRef), (legacyKeyringService, legacyKeyringUser secretRef)]

/-- Each entry is absent, or it can be read and deleted when its turn comes. -/
def EntriesGo (codec : Secrets.Codec) : List (String × String) → World Keyring → Prop
  | [], _ => True
  | (service, user) :: entries, w =>
    (w.state (service, user) = none ∨ Goes 2 w.outcomes) ∧ EntriesGo codec entries (deleteSecretFromService codec service user w).2

instance EntriesGo.decidable (codec : Secrets.Codec) :
    (entries : List (String × String)) → (w : World Keyring) → Decidable (EntriesGo codec entries w)
  | [], _ => .isTrue trivial
  | (service, user) :: entries, w =>
    @instDecidableAnd _ _ inferInstance (EntriesGo.decidable codec entries (deleteSecretFromService codec service user w).2)

/-- The entries go when the secret was removed from the vault. -/
def Setup.Clears (setup : Setup) (secretRef : String) (keyring : Keyring) :
    Result VaultStore.VaultError Bool × World VaultStore.Vault → Prop
  | (.ok true, w) => EntriesGo setup.keyring (setup.entriesOf secretRef) ⟨keyring, w.outcomes⟩
  | _ => True

instance (setup : Setup) (secretRef : String) (keyring : Keyring) :
    (run : Result VaultStore.VaultError Bool × World VaultStore.Vault) → Decidable (setup.Clears secretRef keyring run)
  | (.ok true, w) => inferInstanceAs (Decidable (EntriesGo _ _ ⟨keyring, w.outcomes⟩))
  | (.ok false, _) | (.error _, _) | (.crash, _) => .isTrue trivial

section
variable {codec : Secrets.Codec} {setup : Setup} {service user generation secretRef : String} {I : Keyring → Prop}
  {entries : List (String × String)}

variable {first second : KeyringOp Unit}

theorem keeps_both (hfirst : Keeps I first) (hsecond : Keeps I second) :
    Keeps I (both first second) :=
  hfirst.attempt.bind fun _ => hsecond.attempt.bind fun _ => (keeps_ofExcept _).bind fun _ => keeps_ofExcept _

theorem keeps_deleteNamed : Keeps (Absent entries) (deleteNamedSecretResult codec user) :=
  keeps_both keeps_deleteSecret keeps_deleteSecret

theorem keeps_deleteKeyringSecret : Keeps (Absent entries) (deleteKeyringSecret setup secretRef) :=
  keeps_both keeps_deleteNamed keeps_deleteNamed

theorem keeps_loadNamed (hentry : (keyringService, user) ∉ entries)
    (hchunks : ∀ index, (keyringService, chunkUser user generation index) ∉ entries) :
    Keeps (Absent entries) (loadNamedSecretResult codec generation user) := by
  refine keeps_loadSecret.bind fun value => ?_
  cases value with
  | some value => exact keeps_pure _
  | none =>
    refine keeps_loadSecret.bind fun value => ?_
    cases value with
    | none => exact keeps_pure none
    | some value =>
      refine (keeps_saveToService hentry hchunks value).attempt.bind fun saved => ?_
      cases saved with
      | ok _ => exact (keeps_ignore keeps_deleteSecret).bind fun _ => keeps_pure _
      | error e => exact keeps_pure _

/-- Entries that are not those of the secret or of its chunks stay absent when it is loaded. -/
theorem keeps_loadKeyringSecret (hentries : ∀ user ∈ [setup.keyringUser secretRef, legacyKeyringUser secretRef],
      (keyringService, user) ∉ entries ∧ ∀ index, (keyringService, chunkUser user generation index) ∉ entries) :
    Keeps (Absent entries) (loadKeyringSecret setup generation secretRef) := by
  obtain ⟨hhashed, hhashedChunks⟩ := hentries _ List.mem_cons_self
  obtain ⟨hlegacy, hlegacyChunks⟩ := hentries _ (List.mem_cons_of_mem _ List.mem_cons_self)
  refine (keeps_loadNamed hhashed hhashedChunks).bind fun value => ?_
  cases value with
  | some value => exact keeps_pure _
  | none =>
    refine (keeps_loadNamed hlegacy hlegacyChunks).bind fun value => ?_
    cases value with
    | none => exact keeps_pure none
    | some value =>
      exact (keeps_saveToService hhashed hhashedChunks value).bind fun _ => keeps_deleteNamed.bind fun _ => keeps_pure _

/-! ## Clearing -/

theorem noCrash_drop_one {outcomes : List Outcome} (h : NoCrash outcomes) : NoCrash (outcomes.drop 1) :=
  fun outcome hmem => h outcome (List.mem_of_mem_drop hmem)

variable {w : World Keyring}

/-- The entry is gone, if it was there and could be deleted. -/
theorem ends_deleteSecret (codec : Secrets.Codec) (hcalm : NoCrash w.outcomes) (hdone : Absent entries w.state)
    (hentry : w.state (service, user) = none ∨ Goes 2 w.outcomes) :
    Ends (deleteSecretFromService codec service user w) fun w' =>
      NoCrash w'.outcomes ∧ Absent (entries ++ [(service, user)]) w'.state := by
  rcases hentry with hnone | hgoes
  · refine keeps_deleteSecret w hcalm fun entry hmem => ?_
    rcases List.mem_append.mp hmem with hold | hnew
    · exact hdone entry hold
    · rw [List.mem_singleton.mp hnew]
      exact hnone
  · obtain ⟨hread, hdelete⟩ := (goes_add 1 1 w.outcomes).mp hgoes
    unfold deleteSecretFromService Ends
    refine (meets_bind _ _).mpr ?_
    unfold loadRawFromService
    refine (meets_bind _ _).mpr (meets_write_goes (fun _ => ?_) (fun hstop => absurd hread hstop) fun hstop => absurd hread hstop)
    refine (meets_bind _ _).mpr (meets_get.mpr ((meets_pure _).mpr ((meets_bind _ _).mpr ?_)))
    unfold deleteFromService
    refine meets_write_goes (fun _ => ?_) (fun hstop => absurd hdelete hstop) fun hstop => absurd hdelete hstop
    have habsent : Absent (entries ++ [(service, user)]) (Function.update w.state (service, user) none) := by
      intro entry hmem
      rcases List.mem_append.mp hmem with hold | hnew
      · exact absent_delete hdone _ entry hold
      · rw [List.mem_singleton.mp hnew, Function.update_self]
    have hrest := noCrash_drop_one (noCrash_drop_one hcalm)
    dsimp only [id]
    generalize (w.state (service, user)).bind (fun stored => (decodeManifest codec stored).toOption) = manifest
    cases manifest with
    | some manifest => exact keeps_deleteManifestChunks manifest _ hrest habsent
    | none => exact ⟨hrest, habsent⟩

/-- The second operation runs in the world after the first, and its world is the last one. -/
theorem ends_both {P Q : World Keyring → Prop} (hfirst : Ends (first w) P)
    (hsecond : P (first w).2 → Ends (second (first w).2) Q) :
    Ends (both first second w) fun w' => Q w' ∧ w' = (second (first w).2).2 := by
  have hnext : ∀ current : Except KeyringError Unit, P (first w).2 →
      Ends ((do
        let legacy ← second.attempt
        Op.ofExcept current
        Op.ofExcept legacy : KeyringOp Unit) (first w).2) fun w' => Q w' ∧ w' = (second (first w).2).2 := by
    intro current hP
    refine (meets_bind _ _).mpr ((meets_attempt second).mpr ((Meets.self (hsecond hP)).mono ?_ ?_ fun _ hC => hC.1))
    · rintro legacy w' hQ
      cases current <;> exact hQ
    · rintro e w' hQ
      cases current <;> exact hQ
  refine (meets_bind _ _).mpr ((meets_attempt first).mpr ((Meets.self hfirst).mono ?_ ?_ fun _ hC => hC.1))
  · rintro value w' ⟨hP, rfl⟩
    exact hnext _ hP
  · rintro e w' ⟨hP, rfl⟩
    exact hnext _ hP

/-- All entries of the secret are gone, if each could be deleted. -/
theorem ends_deleteKeyringSecret (hcalm : NoCrash w.outcomes)
    (hentries : EntriesGo setup.keyring (setup.entriesOf secretRef) w) :
    Ends (deleteKeyringSecret setup secretRef w) fun w' =>
      NoCrash w'.outcomes ∧ Absent (setup.entriesOf secretRef) w'.state := by
  obtain ⟨hfirst, hsecond, hthird, hfourth, -⟩ := hentries
  have hnone : Absent [] w.state := nofun
  have hhashed := ends_both (ends_deleteSecret setup.keyring hcalm hnone hfirst) fun h => ends_deleteSecret setup.keyring h.1 h.2 hsecond
  refine Ends.mono (ends_both hhashed fun ⟨⟨hcalm, hdone⟩, hworld⟩ => ?_) fun _ h => h.1
  rw [hworld] at hcalm hdone ⊢
  exact Ends.mono (ends_both (ends_deleteSecret setup.keyring hcalm hdone hthird) fun h => ends_deleteSecret setup.keyring h.1 h.2 hfourth) fun _ h => h.1

end

/-! ## The vault -/

section
variable {setup : Setup} {nonce : VaultStore.Nonce} {secretRef value : String} {data : VaultStore.VaultData}

theorem keeps_writeDisk (update : VaultStore.Disk → VaultStore.Disk) :
    Keeps (fun vault => vault.data = data) (VaultStore.writeDisk update) :=
  keeps_write fun _ hdata => hdata

theorem keeps_ignoreWrite {op : VaultStore.VaultOp Unit} {I : VaultStore.Vault → Prop} (h : Keeps I op) :
    Keeps I (VaultStore.ignore op) :=
  h.attempt.bind fun _ => keeps_pure ()

/-- Writing the file leaves the data of the process. -/
theorem keeps_atomicReplace (bytes : List UInt8) :
    Keeps (fun vault => vault.data = data) (VaultStore.atomicReplace bytes) := by
  have hwhen : ∀ (there : VaultStore.Vault → Bool) {op : VaultStore.VaultOp Unit}, Keeps (fun vault => vault.data = data) op →
      Keeps (fun vault => vault.data = data) (do if there (← Op.get) then op) := by
    intro there op hop
    refine keeps_get.bind fun vault => ?_
    split
    · exact hop
    · exact keeps_pure ()
  have hprepare : Keeps (fun vault => vault.data = data) (VaultStore.prepare bytes) :=
    (keeps_writeDisk _).bind fun _ => (keeps_writeDisk _).bind fun _ => (keeps_writeDisk _).bind fun _ =>
      (hwhen (fun vault => vault.disk.backup.isSome) (keeps_writeDisk _)).bind fun _ =>
        hwhen (fun vault => vault.disk.path.isSome) (keeps_writeDisk _)
  have hreplace : Keeps (fun vault => vault.data = data) (VaultStore.replace bytes) := by
    refine hprepare.bind fun _ => (keeps_writeDisk _).attempt.bind fun installed => ?_
    cases installed with
    | error e =>
      exact (hwhen (fun vault => vault.disk.backup.isSome) (keeps_ignoreWrite (keeps_writeDisk _))).bind fun _ => keeps_throw e
    | ok _ => exact keeps_ignoreWrite (keeps_writeDisk _)
  refine hreplace.attempt.bind fun replaced => ?_
  cases replaced with
  | error e => exact (keeps_ignoreWrite (keeps_writeDisk _)).bind fun _ => keeps_throw e
  | ok _ => exact keeps_pure ()

variable {w : World VaultStore.Vault}

/-- Where the file cannot be written, the data are what they were. -/
theorem meets_persistData {undo : VaultStore.VaultData → VaultStore.VaultData}
    (hcalm : NoCrash w.outcomes) (hundo : undo w.state.data = data) :
    Meets (VaultStore.persistOr setup.vault setup.key nonce undo w)
      (fun _ w' => NoCrash w'.outcomes ∧ w'.state.data = w.state.data)
      (fun _ w' => NoCrash w'.outcomes ∧ w'.state.data = data) fun _ => False := by
  have hpersist : Keeps (fun vault => vault.data = w.state.data) (VaultStore.persist setup.vault setup.key nonce) :=
    keeps_get.bind fun _ => (keeps_ofExcept _).bind fun bytes => keeps_atomicReplace bytes
  refine (meets_bind _ _).mpr ((meets_attempt _).mpr (Meets.mono (hpersist w hcalm rfl) ?_ ?_ fun _ hC => hC))
  · exact fun _ w' h => h
  · rintro e w' ⟨hcalm', hdata⟩
    refine ⟨hcalm', ?_⟩
    show undo w'.state.data = data
    rw [hdata]
    exact hundo

theorem meets_saveData (hcalm : NoCrash w.outcomes) :
    Meets (VaultStore.save setup.vault setup.key nonce secretRef value w)
      (fun _ w' => NoCrash w'.outcomes ∧ w'.state.data = w.state.data.insert secretRef value)
      (fun _ w' => NoCrash w'.outcomes ∧ w'.state.data = w.state.data) fun _ => False := by
  refine (meets_bind _ _).mpr (meets_get.mpr ((meets_bind _ _).mpr ?_))
  cases VaultStore.checkSave secretRef value w.state.data with
  | error e => exact ⟨hcalm, rfl⟩
  | ok _ =>
    refine (meets_ofExcept_ok _).mpr ((meets_bind _ _).mpr ((meets_modify _).mpr ?_))
    exact meets_persistData hcalm (VaultStore.putBackValue_insert w.state.data secretRef value)

/-- Deleting returns whether there was a value. -/
theorem meets_deleteData (hcalm : NoCrash w.outcomes) :
    Meets (VaultStore.delete setup.vault setup.key nonce secretRef w)
      (fun removed w' => NoCrash w'.outcomes ∧ w'.state.data = w.state.data.erase secretRef ∧
        removed = w.state.data[secretRef]?.isSome)
      (fun _ w' => NoCrash w'.outcomes ∧ w'.state.data = w.state.data) fun _ => False := by
  refine (meets_bind _ _).mpr ?_
  cases VaultStore.validateRef secretRef with
  | error e => exact ⟨hcalm, rfl⟩
  | ok _ =>
    refine (meets_ofExcept_ok _).mpr ((meets_bind _ _).mpr (meets_get.mpr ?_))
    cases hget : w.state.data[secretRef]? with
    | none =>
      refine ⟨hcalm, ?_, rfl⟩
      refine (ExtTreeMap.ext_getElem? fun other => ?_).symm
      rw [getElem?_erase_ite]
      split
      case isTrue heq => rw [← heq, hget]
      case isFalse => rfl
    | some previous =>
      have hpersist : Meets (VaultStore.persistOr setup.vault setup.key nonce (VaultStore.putBackValue secretRef (some previous))
          { w with state := { w.state with data := w.state.data.erase secretRef } }) _ _ _ :=
        meets_persistData hcalm (VaultStore.putBackValue_erase hget)
      refine (meets_bind _ _).mpr ((meets_modify _).mpr ((meets_bind _ _).mpr ?_))
      exact Meets.mono hpersist (fun _ w' h => ⟨h.1, h.2, rfl⟩) (fun _ _ hE => hE) fun _ hC => hC

end

/-! ## Runs -/

/-- Which of the calls of an operation fail; those after the listed ones succeed. -/
def outcomesOf (failures : List Bool) : List Outcome := failures.map fun failed => if failed then .failed else .done

theorem noCrash_outcomesOf (failures : List Bool) : NoCrash (outcomesOf failures) := by
  intro outcome hmem
  obtain ⟨failed, -, rfl⟩ := List.mem_map.mp hmem
  cases failed <;> decide

inductive StoreStep
  | save (nonce : VaultStore.Nonce) (secretRef value : String) (failures : List Bool)
  | load (nonce : VaultStore.Nonce) (generation secretRef : String) (failures : List Bool)
  | delete (nonce : VaultStore.Nonce) (secretRef : String) (failures : List Bool)

/-- `last` has, for each secret that was saved or removed from the vault, the value of the last of these. -/
structure StoreSystem where
  stores : Stores
  last : String → Option (Option String)

namespace StoreSystem

variable (setup : Setup) (s : StoreSystem)

def start (stores : Stores) : StoreSystem := ⟨stores, fun _ => none⟩

def step : StoreStep → StoreSystem
  | .save nonce secretRef value failures =>
    match save setup nonce secretRef value ⟨s.stores, outcomesOf failures⟩ with
    | (.ok _, w) => ⟨w.state, Function.update s.last secretRef (some (some value))⟩
    | (_, w) => ⟨w.state, s.last⟩
  | .load nonce generation secretRef failures =>
    ⟨(load setup nonce generation secretRef ⟨s.stores, outcomesOf failures⟩).2.state, s.last⟩
  | .delete nonce secretRef failures =>
    let stores := (delete setup nonce secretRef ⟨s.stores, outcomesOf failures⟩).2.state
    -- Where the keyring fails, the secret is no longer in the vault.
    let removed := (s.stores.vault.data[secretRef]?).isSome && (stores.vault.data[secretRef]?).isNone
    ⟨stores, if removed then Function.update s.last secretRef (some none) else s.last⟩

/-- A load of the secret that returns tells its last value, if there was one. -/
def TellsLast (secretRef : String) : StoreStep → Prop
  | .load nonce generation other failures => other = secretRef →
    ∀ value last, (load setup nonce generation secretRef ⟨s.stores, outcomesOf failures⟩).1 = .ok value →
      s.last secretRef = some last → value = last
  | _ => True

/-- A deletion that removes the secret from the vault can also delete its entries in the keyring. -/
def DeletesEntries (secretRef : String) : StoreStep → Prop
  | .delete nonce other failures => other = secretRef → setup.Clears secretRef s.stores.keyring
      (VaultStore.delete setup.vault setup.key nonce secretRef ⟨s.stores.vault, outcomesOf failures⟩)
  | _ => True

/-- What is relied on for digests and generations: two references of the run have two digests, and no reference is that
of a chunk, since the generation of the chunks is new. -/
def Apart (secretRef : String) : StoreStep → Prop
  | .load _ generation other _ =>
    (setup.digest other = setup.digest secretRef → other = secretRef) ∧
      ∀ index, secretRef ≠ chunkUser other generation index
  | _ => True

end StoreSystem

/-! ## Held values -/

/-- The vault has the value of the secret. Where there is none, the keyring has no entries of it either. -/
def Held (setup : Setup) (secretRef : String) (value : Option String) (stores : Stores) : Prop :=
  stores.vault.data[secretRef]? = value ∧ (value = none → Absent (setup.entriesOf secretRef) stores.keyring)

section
variable {setup : Setup} {nonce : VaultStore.Nonce} {generation secretRef other : String} {value : Option String}

theorem mem_entriesOf {user : String} : (keyringService, user) ∈ setup.entriesOf secretRef ↔
    user = setup.keyringUser secretRef ∨ user = legacyKeyringUser secretRef := by
  have hservice : keyringService ≠ legacyKeyringService := by decide
  simp [Setup.entriesOf, hservice]

/-- The two prefixes tell the entries apart. -/
theorem hashed_ne_legacy (hashed legacy : List Char) :
    hashedSecretPrefix.toList ++ hashed ≠ secretPrefix.toList ++ legacy := by
  intro heq
  exact absurd (congrArg (fun chars => chars[1]?) heq) (by simp [hashedSecretPrefix, secretPrefix])

/-- Neither an entry of another secret nor one of its chunks is an entry of the secret. -/
theorem users_apart (hne : other ≠ secretRef) (hdigest : setup.digest other = setup.digest secretRef → other = secretRef)
    (hcolon : ':' ∉ (setup.digest secretRef).toList) (hchunk : ∀ index, secretRef ≠ chunkUser other generation index) :
    ∀ user ∈ [setup.keyringUser other, legacyKeyringUser other], (keyringService, user) ∉ setup.entriesOf secretRef ∧
      ∀ index, (keyringService, chunkUser user generation index) ∉ setup.entriesOf secretRef := by
  have hchars : ∀ {a b : String}, a = b → a.toList = b.toList := congrArg String.toList
  have hhashed : (setup.keyringUser secretRef).toList = hashedSecretPrefix.toList ++ (setup.digest secretRef).toList :=
    String.toList_append
  have hlegacy : (legacyKeyringUser secretRef).toList = secretPrefix.toList ++ secretRef.toList := String.toList_append
  simp only [List.forall_mem_cons, mem_entriesOf, not_or, List.not_mem_nil, false_imp_iff, implies_true, and_true]
  refine ⟨⟨⟨fun heq => ?_, fun heq => ?_⟩, fun index => ⟨fun heq => ?_, fun heq => ?_⟩⟩,
    ⟨fun heq => ?_, fun heq => ?_⟩, fun index => ⟨fun heq => ?_, fun heq => ?_⟩⟩
  · have heq := hchars heq
    rw [hhashed, Setup.keyringUser, String.toList_append] at heq
    exact hne (hdigest (String.toList_inj.mp (List.append_cancel_left heq)))
  · have heq := hchars heq
    rw [hlegacy, Setup.keyringUser, String.toList_append] at heq
    exact hashed_ne_legacy _ _ heq
  · -- The digest has no colon.
    have heq := hchars heq
    rw [hhashed, toList_chunkUser, Setup.keyringUser, String.toList_append, List.append_assoc] at heq
    have hdigest := List.append_cancel_left heq
    exact hcolon (hdigest ▸ List.mem_append_right _ (by simp))
  · have heq := hchars heq
    rw [hlegacy, toList_chunkUser, Setup.keyringUser, String.toList_append, List.append_assoc] at heq
    exact hashed_ne_legacy _ _ heq
  · have heq := hchars heq
    rw [hhashed, legacyKeyringUser, String.toList_append] at heq
    exact hashed_ne_legacy _ _ heq.symm
  · have heq := hchars heq
    rw [hlegacy, legacyKeyringUser, String.toList_append] at heq
    exact hne (String.toList_inj.mp (List.append_cancel_left heq))
  · have heq := hchars heq
    rw [hhashed, toList_chunkUser, legacyKeyringUser, String.toList_append, List.append_assoc] at heq
    exact hashed_ne_legacy _ _ heq.symm
  · have heq := hchars heq
    rw [hlegacy, toList_chunkUser, legacyKeyringUser, String.toList_append, List.append_assoc] at heq
    refine hchunk index (String.toList_inj.mp ?_)
    rw [toList_chunkUser]
    exact (List.append_cancel_left heq).symm

theorem keeps_onVault {α : Type} {op : VaultStore.VaultOp α}
    (h : Keeps (fun vault => vault.data[secretRef]? = value) op) : Keeps (Held setup secretRef value) (onVault op) :=
  h.on (fun _ hheld => hheld.1) fun _ _ hheld hvault => ⟨hvault, hheld.2⟩

theorem keeps_onKeyring {α : Type} {op : KeyringOp α}
    (h : ∀ entries, entries ⊆ setup.entriesOf secretRef → Keeps (Absent entries) op) :
    Keeps (Held setup secretRef value) (onKeyring op) := by
  by_cases hvalue : value = none
  · exact (h _ (List.Subset.refl _)).on (fun _ hheld => hheld.2 hvalue) fun _ _ hheld habsent => ⟨hheld.1, fun _ => habsent⟩
  · exact (h [] (List.nil_subset _)).on (fun _ _ => nofun) fun _ _ hheld _ => ⟨hheld.1, fun hnone => absurd hnone hvalue⟩

theorem keeps_clearKeyring : Keeps (Held setup secretRef value) (clearKeyring setup other) :=
  keeps_onKeyring fun _ _ => keeps_ignore keeps_deleteKeyringSecret

theorem keeps_saveOther (hne : other ≠ secretRef) (text : String) :
    Keeps (fun vault => vault.data[secretRef]? = value) (VaultStore.save setup.vault setup.key nonce other text) := by
  intro w hcalm hdata
  refine Meets.mono (meets_saveData hcalm) ?_ (fun _ w' h => ⟨h.1, (congrArg (·[secretRef]?) h.2).trans hdata⟩) fun _ hC => hC
  rintro _ w' ⟨hcalm', hsaved⟩
  refine ⟨hcalm', ?_⟩
  show w'.state.data[secretRef]? = value
  rw [hsaved, getElem?_insert_ite, if_neg hne]
  exact hdata

theorem keeps_deleteOther (hne : other ≠ secretRef) :
    Keeps (fun vault => vault.data[secretRef]? = value) (VaultStore.delete setup.vault setup.key nonce other) := by
  intro w hcalm hdata
  refine Meets.mono (meets_deleteData hcalm) ?_ (fun _ w' h => ⟨h.1, (congrArg (·[secretRef]?) h.2).trans hdata⟩) fun _ hC => hC
  rintro _ w' ⟨hcalm', herased, -⟩
  refine ⟨hcalm', ?_⟩
  show w'.state.data[secretRef]? = value
  rw [herased, getElem?_erase_ite, if_neg hne]
  exact hdata

/-! Operations on other secrets. -/

theorem keeps_save (hne : other ≠ secretRef) (text : String) :
    Keeps (Held setup secretRef value) (save setup nonce other text) := by
  refine (keeps_ofExcept _).bind fun _ => ?_
  split
  · exact keeps_throw _
  · exact (keeps_onVault (keeps_saveOther hne text)).bind fun _ => keeps_clearKeyring

theorem keeps_load (hne : other ≠ secretRef)
    (hload : ∀ entries, entries ⊆ setup.entriesOf secretRef → Keeps (Absent entries) (loadKeyringSecret setup generation other)) :
    Keeps (Held setup secretRef value) (load setup nonce generation other) := by
  refine (keeps_ofExcept _).bind fun _ => keeps_get.bind fun stores => ?_
  split
  · exact keeps_pure _
  · refine (keeps_onKeyring hload).bind fun found => ?_
    cases found with
    | none => exact keeps_pure none
    | some text => exact (keeps_onVault (keeps_saveOther hne text)).bind fun _ => keeps_clearKeyring.bind fun _ => keeps_pure _

theorem keeps_delete (hne : other ≠ secretRef) : Keeps (Held setup secretRef value) (delete setup nonce other) :=
  (keeps_ofExcept _).bind fun _ => (keeps_onVault (keeps_deleteOther hne)).bind fun _ =>
    keeps_onKeyring fun _ _ => keeps_deleteKeyringSecret

/-! Loading a secret that has no entries finds nothing and changes nothing. -/

variable {w : World Keyring}

variable {codec : Secrets.Codec}

theorem meets_loadAbsent {service user : String} (hcalm : NoCrash w.outcomes)
    (habsent : w.state (service, user) = none) :
    Meets (loadSecretFromService codec service user w)
      (fun found w' => found = none ∧ NoCrash w'.outcomes ∧ w'.state = w.state)
      (fun _ w' => w'.state = w.state) fun _ => False := by
  refine (meets_bind _ _).mpr ((meets_bind _ _).mpr ?_)
  refine meets_write hcalm (fun outcomes hrest => ?_) (fun _ _ _ => rfl) fun hcrash => absurd rfl hcrash
  refine (meets_bind _ _).mpr (meets_get.mpr ((meets_pure _).mpr ?_))
  show Meets ((match w.state (service, user) with
    | none => pure none
    | some _ => _ : KeyringOp (Option String)) _) _ _ _
  rw [habsent]
  exact ⟨rfl, hrest, rfl⟩

theorem meets_loadNamedAbsent {user : String} (hcalm : NoCrash w.outcomes)
    (hpresent : w.state (keyringService, user) = none) (hlegacy : w.state (legacyKeyringService, user) = none) :
    Meets (loadNamedSecretResult codec generation user w)
      (fun found w' => found = none ∧ NoCrash w'.outcomes ∧ w'.state = w.state)
      (fun _ w' => w'.state = w.state) fun _ => False := by
  refine Meets.bind (meets_loadAbsent hcalm hpresent) ?_
  rintro _ w₁ ⟨rfl, hcalm₁, hw₁⟩
  rw [← hw₁] at hlegacy ⊢
  refine Meets.bind (meets_loadAbsent hcalm₁ hlegacy) ?_
  rintro _ w₂ ⟨rfl, hcalm₂, hw₂⟩
  exact ⟨rfl, hcalm₂, hw₂⟩

theorem meets_loadKeyringAbsent (hcalm : NoCrash w.outcomes)
    (habsent : Absent (setup.entriesOf secretRef) w.state) :
    Meets (loadKeyringSecret setup generation secretRef w)
      (fun found w' => found = none ∧ NoCrash w'.outcomes ∧ w'.state = w.state)
      (fun _ w' => w'.state = w.state) fun _ => False := by
  have hentry : ∀ entry ∈ setup.entriesOf secretRef, w.state entry = none := habsent
  simp only [Setup.entriesOf, List.forall_mem_cons] at hentry
  obtain ⟨hfirst, hsecond, hthird, hfourth, -⟩ := hentry
  refine Meets.bind (meets_loadNamedAbsent hcalm hfirst hsecond) ?_
  rintro _ w₁ ⟨rfl, hcalm₁, hw₁⟩
  rw [← hw₁] at hthird hfourth ⊢
  refine Meets.bind (meets_loadNamedAbsent hcalm₁ hthird hfourth) ?_
  rintro _ w₂ ⟨rfl, hcalm₂, hw₂⟩
  exact ⟨rfl, hcalm₂, hw₂⟩

variable {w : World Stores}

/-- A held value is what loading returns, and loading changes nothing. -/
theorem meets_load (hcalm : NoCrash w.outcomes) (hheld : Held setup secretRef value w.state) :
    Meets (load setup nonce generation secretRef w) (fun found w' => found = value ∧ w'.state = w.state)
      (fun _ w' => w'.state = w.state) fun _ => False := by
  refine (meets_bind _ _).mpr ?_
  cases validateSecretRef secretRef with
  | error e => exact rfl
  | ok _ =>
    refine (meets_ofExcept_ok _).mpr ((meets_bind _ _).mpr (meets_get.mpr ?_))
    rw [hheld.1]
    cases value with
    | some value => exact ⟨rfl, rfl⟩
    | none =>
      refine (meets_bind _ _).mpr (meets_on.mpr (Meets.mono (meets_loadKeyringAbsent hcalm (hheld.2 rfl)) ?_ ?_ fun _ hC => hC))
      · rintro _ w' ⟨rfl, -, hw'⟩
        refine ⟨rfl, ?_⟩
        show { w.state with keyring := w'.state } = w.state
        rw [hw']
      · intro _ w' hw'
        show { w.state with keyring := w'.state } = w.state
        rw [hw']

/-- A saved value is held. Where saving gives up, nothing has changed. -/
theorem meets_save (hcalm : NoCrash w.outcomes) (text : String) :
    Meets (save setup nonce secretRef text w) (fun _ w' => Held setup secretRef (some text) w'.state)
      (fun _ w' => w'.state.vault.data = w.state.vault.data ∧ w'.state.keyring = w.state.keyring) fun _ => False := by
  refine (meets_bind _ _).mpr ?_
  cases validateSecretRef secretRef with
  | error e => exact ⟨rfl, rfl⟩
  | ok _ =>
    refine (meets_ofExcept_ok _).mpr ?_
    split
    · exact ⟨rfl, rfl⟩
    · refine (meets_bind _ _).mpr (meets_on.mpr (Meets.mono (meets_saveData hcalm) ?_ (fun _ w' h => ⟨h.2, rfl⟩) fun _ hC => hC))
      rintro _ w' ⟨hcalm', hsaved⟩
      have hheld : Held setup secretRef (some text) { w.state with vault := w'.state } := by
        refine ⟨?_, nofun⟩
        show w'.state.data[secretRef]? = some text
        rw [hsaved, getElem?_insert_ite, if_pos rfl]
      refine meets_on.mpr ((meets_bind _ _).mpr ((meets_attempt _).mpr ?_))
      exact Meets.mono (@keeps_deleteKeyringSecret setup secretRef [] _ hcalm' nofun)
        (fun _ _ _ => ⟨hheld.1, nofun⟩) (fun _ _ _ => ⟨hheld.1, nofun⟩) fun _ hC => hC

/-- Deleting either changes nothing, or the secret is no longer in the vault and, if it was, not in the keyring. -/
theorem ends_delete (hcalm : NoCrash w.outcomes)
    (hdeletes : setup.Clears secretRef w.state.keyring
      (VaultStore.delete setup.vault setup.key nonce secretRef ⟨w.state.vault, w.outcomes⟩)) :
    Ends (delete setup nonce secretRef w) fun w' =>
      (w'.state.vault.data = w.state.vault.data ∧ w'.state.keyring = w.state.keyring) ∨
        (w'.state.vault.data = w.state.vault.data.erase secretRef ∧
          (w.state.vault.data[secretRef]? ≠ none ∨ Absent (setup.entriesOf secretRef) w.state.keyring →
            Absent (setup.entriesOf secretRef) w'.state.keyring)) := by
  refine (meets_bind _ _).mpr ?_
  cases validateSecretRef secretRef with
  | error e => exact .inl ⟨rfl, rfl⟩
  | ok _ =>
    have hvault : Meets (VaultStore.delete setup.vault setup.key nonce secretRef ⟨w.state.vault, w.outcomes⟩) _ _ _ :=
      meets_deleteData hcalm
    refine (meets_ofExcept_ok _).mpr ((meets_bind _ _).mpr (meets_on.mpr ?_))
    show Meets (VaultStore.delete setup.vault setup.key nonce secretRef ⟨w.state.vault, w.outcomes⟩) _ _ _
    generalize VaultStore.delete setup.vault setup.key nonce secretRef ⟨w.state.vault, w.outcomes⟩ = run at hvault hdeletes ⊢
    obtain ⟨removed | e | _, w'⟩ := run
    · obtain ⟨hcalm', herased, hremoved⟩ := hvault
      refine meets_on.mpr ?_
      cases removed with
      | true =>
        refine Meets.mono (@ends_deleteKeyringSecret setup secretRef ⟨w.state.keyring, w'.outcomes⟩ hcalm' hdeletes) ?_ ?_ fun _ hC => hC
        · exact fun _ _ h => .inr ⟨herased, fun _ => h.2⟩
        · exact fun _ _ h => .inr ⟨herased, fun _ => h.2⟩
      | false =>
        have hnone : ¬w.state.vault.data[secretRef]? ≠ none := fun hsome =>
          Bool.false_ne_true (hremoved.trans (Option.isSome_iff_ne_none.mpr hsome))
        by_cases habsent : Absent (setup.entriesOf secretRef) w.state.keyring
        · exact Meets.mono (@keeps_deleteKeyringSecret setup secretRef _ ⟨w.state.keyring, w'.outcomes⟩ hcalm' habsent)
            (fun _ _ h => .inr ⟨herased, fun _ => h.2⟩) (fun _ _ h => .inr ⟨herased, fun _ => h.2⟩) fun _ hC => hC
        · have hneither := fun h => Or.elim h hnone habsent
          exact Meets.mono (@keeps_deleteKeyringSecret setup secretRef [] ⟨w.state.keyring, w'.outcomes⟩ hcalm' nofun)
            (fun _ _ _ => .inr ⟨herased, fun h => (hneither h).elim⟩)
            (fun _ _ _ => .inr ⟨herased, fun h => (hneither h).elim⟩) fun _ hC => hC
    · exact .inl ⟨hvault.2, rfl⟩
    · exact hvault

end

/-! ## Every run -/

namespace StoreSystem

variable {setup : Setup} {secretRef : String} {s : StoreSystem}

/-- The last value of the secret is held. -/
def Settled (setup : Setup) (secretRef : String) (s : StoreSystem) : Prop :=
  ∀ value, s.last secretRef = some value → Held setup secretRef value s.stores

theorem Held.congr {value : Option String} {stores stores' : Stores} (h : Held setup secretRef value stores)
    (hdata : stores'.vault.data = stores.vault.data) (hkeyring : stores'.keyring = stores.keyring) :
    Held setup secretRef value stores' := by
  unfold Held
  rw [hdata, hkeyring]
  exact h

/-- An operation on another secret. -/
theorem Settled.other (h : s.Settled setup secretRef) {stores : Stores} {last : String → Option (Option String)}
    (hlast : last secretRef = s.last secretRef)
    (hstores : ∀ value, Held setup secretRef value s.stores → Held setup secretRef value stores) :
    (⟨stores, last⟩ : StoreSystem).Settled setup secretRef :=
  fun value hvalue => hstores value (h value (hlast ▸ hvalue))

theorem Settled.save (h : s.Settled setup secretRef) (nonce : VaultStore.Nonce) (other text : String) (failures : List Bool) :
    (s.step setup (.save nonce other text failures)).Settled setup secretRef := by
  have hcalm := noCrash_outcomesOf failures
  simp only [StoreSystem.step]
  by_cases hne : other = secretRef
  · subst hne
    have hsave : Meets (SecretStore.save setup nonce other text ⟨s.stores, outcomesOf failures⟩) _ _ _ := meets_save hcalm text
    generalize SecretStore.save setup nonce other text ⟨s.stores, outcomesOf failures⟩ = run at hsave ⊢
    obtain ⟨_ | e | _, w⟩ := run
    · intro value hvalue
      obtain rfl := Option.some.inj ((Function.update_self other _ s.last).symm.trans hvalue)
      exact hsave
    · exact fun value hvalue => Held.congr (h value hvalue) hsave.1 hsave.2
    · exact hsave.elim
  · have hkeeps : ∀ value, Held setup secretRef value s.stores →
        Ends (SecretStore.save setup nonce other text ⟨s.stores, outcomesOf failures⟩)
          fun w => NoCrash w.outcomes ∧ Held setup secretRef value w.state :=
      fun value hheld => keeps_save hne text _ hcalm hheld
    generalize SecretStore.save setup nonce other text ⟨s.stores, outcomesOf failures⟩ = run at hkeeps ⊢
    obtain ⟨_ | e | _, w⟩ := run
    · exact h.other (Function.update_of_ne (Ne.symm hne) _ _) fun value hheld => (hkeeps value hheld).2
    · exact h.other rfl fun value hheld => (hkeeps value hheld).2
    · exact h.other rfl fun value hheld => (hkeeps value hheld).elim

variable {nonce : VaultStore.Nonce} {failures : List Bool}

theorem Settled.load (h : s.Settled setup secretRef) (hcolon : ':' ∉ (setup.digest secretRef).toList)
    {generation other : String}
    (hapart : Apart setup secretRef (.load nonce generation other failures)) :
    (s.step setup (.load nonce generation other failures)).Settled setup secretRef := by
  have hcalm := noCrash_outcomesOf failures
  refine h.other rfl fun value hheld => ?_
  by_cases hne : other = secretRef
  · subst hne
    have hload : Ends (SecretStore.load setup nonce generation other ⟨s.stores, outcomesOf failures⟩) (·.state = s.stores) :=
      Meets.mono (meets_load hcalm hheld) (fun _ _ h => h.2) (fun _ _ h => h) fun _ hC => hC
    rw [hload.snd]
    exact hheld
  · have husers := users_apart hne hapart.1 hcolon hapart.2
    exact (keeps_load hne (fun entries hsubset => keeps_loadKeyringSecret fun user huser =>
      ⟨fun hmem => (husers user huser).1 (hsubset hmem), fun index hmem => (husers user huser).2 index (hsubset hmem)⟩)
        ⟨s.stores, outcomesOf failures⟩ hcalm hheld).snd.2

theorem Settled.delete (h : s.Settled setup secretRef) {other : String}
    (hdeletes : s.DeletesEntries setup secretRef (.delete nonce other failures)) :
    (s.step setup (.delete nonce other failures)).Settled setup secretRef := by
  have hcalm := noCrash_outcomesOf failures
  simp only [StoreSystem.step]
  by_cases hne : other = secretRef
  · subst hne
    have hdelete := (@ends_delete setup nonce other ⟨s.stores, outcomesOf failures⟩ hcalm (hdeletes rfl)).snd
    generalize (SecretStore.delete setup nonce other ⟨s.stores, outcomesOf failures⟩).2.state = stores at hdelete ⊢
    rcases hdelete with ⟨hdata, hkeyring⟩ | ⟨herased, habsent⟩
    · refine h.other ?_ fun value hheld => Held.congr hheld hdata hkeyring
      rw [hdata]
      cases s.stores.vault.data[other]? <;> rfl
    · have hgone : stores.vault.data[other]? = none := by
        rw [herased, getElem?_erase_ite, if_pos rfl]
      rw [hgone]
      cases hget : s.stores.vault.data[other]? with
      | some previous =>
        intro value hvalue
        obtain rfl := Option.some.inj ((Function.update_self other _ s.last).symm.trans hvalue)
        exact ⟨hgone, fun _ => habsent (.inl (by rw [hget]; nofun))⟩
      | none =>
        intro value hvalue
        have hheld := h value hvalue
        obtain rfl := hheld.1.symm.trans hget
        exact ⟨hgone, fun _ => habsent (.inr (hheld.2 rfl))⟩
  · refine h.other ?_ fun value hheld => (keeps_delete hne ⟨s.stores, outcomesOf failures⟩ hcalm hheld).snd.2
    split
    · exact Function.update_of_ne (Ne.symm hne) _ _
    · rfl

/-- What is held is told. -/
theorem Settled.tellsLast (h : s.Settled setup secretRef) (op : StoreStep) : s.TellsLast setup secretRef op := by
  cases op with
  | load nonce generation other failures =>
    rintro rfl found last hfound hlast
    have hload : Meets (SecretStore.load setup nonce generation other ⟨s.stores, outcomesOf failures⟩) _ _ _ :=
      meets_load (noCrash_outcomesOf failures) (h last hlast)
    generalize SecretStore.load setup nonce generation other ⟨s.stores, outcomesOf failures⟩ = run at hload hfound
    obtain ⟨found' | e | _, w⟩ := run
    · obtain rfl := Result.ok.inj hfound
      exact hload.1
    · cases hfound
    · cases hfound
  | save nonce other text failures => trivial
  | delete nonce other failures => trivial

theorem Settled.step (h : s.Settled setup secretRef) (hcolon : ':' ∉ (setup.digest secretRef).toList) {op : StoreStep}
    (hapart : Apart setup secretRef op) (hdeletes : s.DeletesEntries setup secretRef op) :
    (s.step setup op).Settled setup secretRef := by
  cases op with
  | save nonce other text failures => exact h.save nonce other text failures
  | load nonce generation other failures => exact h.load hcolon hapart
  | delete nonce other failures => exact h.delete hdeletes

/-- In every run in which the deletions that remove the secret from the vault can also delete its entries in the keyring, a
load returns the value that was saved last, and nothing after a deletion. -/
theorem superseded_secrets_stay_gone (setup : Setup) (secretRef : String) (hcolon : ':' ∉ (setup.digest secretRef).toList)
    (stores : Stores) (ops : List StoreStep) (hapart : ∀ op ∈ ops, Apart setup secretRef op)
    (hdeletes : StepsMeet (StoreSystem.step setup) (fun s op => s.DeletesEntries setup secretRef op) (start stores) ops) :
    ∀ before op after, ops = before ++ op :: after →
      (run (StoreSystem.step setup) (start stores) before).TellsLast setup secretRef op := by
  rintro before op after rfl
  have hmeets : StepsMeet (StoreSystem.step setup) (fun s op => s.DeletesEntries setup secretRef op ∧ Apart setup secretRef op)
      (start stores) before := by
    refine StepsMeet.and (StepsMeet.append.mp hdeletes).1 (StepsMeet.of_cuts ?_)
    rintro first op' rest rfl
    exact hapart op' (by simp)
  have hstart : (start stores).Settled setup secretRef := fun _ hlast => nomatch hlast
  have hsettled := run_invariant (fun s op (h : s.Settled setup secretRef) hop => h.step hcolon hop.2 hop.1) hstart hmeets
  exact hsettled.tellsLast op

/-! ## A superseded secret -/

def sampleSetup : Setup where
  keyring := Secrets.sampleCodec
  vault := VaultStore.sampleCodec
  key := VaultStore.sampleKey
  digest secretRef := if secretRef = "source:a" then "iedkIuLnXszB0U7ImAGNEkJBfAP51f475wOM6C3sLow" else ""

/-- The secret was saved before there was a vault. -/
def sampleStores : Stores where
  vault := ⟨∅, ⟨none, none, none⟩⟩
  keyring entry := if entry = (keyringService, sampleSetup.keyringUser "source:a") then some "old" else none

/-- The secret is saved anew, while the keyring is locked, and deleted. -/
def savedAnew (failures : List Bool) : List StoreStep :=
  [.save VaultStore.sampleNonce "source:a" "new" (List.replicate 5 false ++ List.replicate 4 true),
    .delete VaultStore.sampleNonce "source:a" failures]

def loadSample : StoreStep := .load VaultStore.sampleNonce Secrets.sampleGeneration "source:a" []

theorem superseded_secrets_stay_gone_sample :
    (run (StoreSystem.step sampleSetup) (start sampleStores) (savedAnew [])).TellsLast sampleSetup "source:a" loadSample :=
  superseded_secrets_stay_gone sampleSetup "source:a" (by decide) sampleStores (savedAnew [] ++ [loadSample])
    (by
      have hlonger : ∀ index, "source:a" ≠ chunkUser "source:a" Secrets.sampleGeneration index :=
        fun index => (chunkUser_ne _ _ index).symm
      simp [savedAnew, loadSample, Apart, hlonger])
    ⟨trivial, fun _ => by decide +kernel, trivial, trivial⟩ (savedAnew []) loadSample [] rfl

/-- The keyring is locked when the secret is deleted, too. The value it held before the vault comes back. -/
theorem superseded_secret_resurfaces :
    let s := run (StoreSystem.step sampleSetup) (start sampleStores) (savedAnew (List.replicate 6 false ++ List.replicate 4 true))
    s.last "source:a" = some none ∧
      (load sampleSetup VaultStore.sampleNonce Secrets.sampleGeneration "source:a" ⟨s.stores, []⟩).1 = .ok (some "old") ∧
      ¬s.TellsLast sampleSetup "source:a" loadSample := by
  intro s
  have hlast : s.last "source:a" = some none := by decide +kernel
  have hload : (load sampleSetup VaultStore.sampleNonce Secrets.sampleGeneration "source:a" ⟨s.stores, []⟩).1 =
      .ok (some "old") := by decide +kernel
  exact ⟨hlast, hload, fun htells => nomatch htells rfl _ _ hload hlast⟩

end StoreSystem

end Zenith.SecretStore
