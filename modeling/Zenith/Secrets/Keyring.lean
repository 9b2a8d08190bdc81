import Mathlib
import Zenith.Lib.Faults
import Zenith.Lib.Text

/-!
# Named secrets in the keyring

`key_storage.rs`. A short value is the password of its entry. A longer one is cut into chunks, each the
password of an entry of its own, and the entry holds a manifest that names their generation, their number and
a digest. Reading, writing and deleting a password may each fail, and then leaves the keyring as it is.

`Codec` is what is not in the repository: `serde_json` for the manifest, and SHA-256 of a text in UTF-8.
-/

namespace Zenith.Secrets

open Zenith.Faults Zenith.Text

/-! ## Values and manifests -/

def chunkUtf16Units : Nat := 1024

def maxChunks : Nat := 4096

def manifestPrefix : String := "__zenith_relay_secret_manifest__:"

def manifestVersion : Nat := 1

def readbackAttempts : Nat := 3

structure SecretManifest where
  version : Nat
  generation : String
  count : Nat
  sha256 : String
deriving DecidableEq, Repr

structure Codec where
  toJson : SecretManifest → String
  fromJson : String → Option SecretManifest
  sha256Hex : String → String

/-- The errors of the module; `message` has their texts, with the reason that the system gives. -/
inductive KeyringError
  | save
  | read
  | delete
  | tooLarge
  | unverified
  | missingChunk
  | checksum
  | manifest
deriving DecidableEq, Repr

/-- `char::len_utf16`. -/
def utf16Len (c : Char) : Nat := if c.toNat < 0x10000 then 1 else 2

def utf16Units (value : String) : Nat := (value.toList.map utf16Len).sum

/-- The chunks, the one that is being filled, and its units. -/
structure Split where
  chunks : List String
  chunk : List Char
  units : Nat

def Split.push (split : Split) (c : Char) : Split :=
  if chunkUtf16Units < split.units + utf16Len c ∧ split.chunk ≠ [] then
    ⟨split.chunks ++ [String.ofList split.chunk], [c], utf16Len c⟩
  else ⟨split.chunks, split.chunk ++ [c], split.units + utf16Len c⟩

def splitSecret (value : String) : List String :=
  let split := value.toList.foldl Split.push ⟨[], [], 0⟩
  if split.chunk = [] then split.chunks else split.chunks ++ [String.ofList split.chunk]

/-- `u8::is_ascii_hexdigit`. -/
def isHexDigit (c : Char) : Bool :=
  ('0' ≤ c && c ≤ '9') || ('a' ≤ c && c ≤ 'f') || ('A' ≤ c && c ≤ 'F')

def isHex (text : String) (length : Nat) : Bool := text.toList.length = length && text.toList.all isHexDigit

def chunkUser (user generation : String) (index : Nat) : String :=
  user ++ ":chunk:" ++ generation ++ ":" ++ toString index

section
variable (codec : Codec)

def encodeManifest (manifest : SecretManifest) : String := manifestPrefix ++ codec.toJson manifest

def decodeManifest (value : String) : Except KeyringError SecretManifest :=
  match (stripPrefix? value manifestPrefix).bind codec.fromJson with
  | some manifest =>
    if manifest.version ≠ manifestVersion ∨ manifest.count = 0 ∨ maxChunks < manifest.count ∨
        !isHex manifest.generation 32 ∨ !isHex manifest.sha256 64 then
      .error .manifest
    else .ok manifest
  | none => .error .manifest

/-! ## The keyring -/

/-- The passwords, by service and user. -/
abbrev Keyring := String × String → Option String

/-- An operation on the keyring. -/
abbrev KeyringOp := Op Keyring KeyringError

def loadRawFromService (service user : String) : KeyringOp (Option String) := do
  Op.write id .read
  let keyring ← Op.get
  return keyring (service, user)

def setPassword (service user value : String) : KeyringOp Unit :=
  Op.write (fun keyring => Function.update keyring (service, user) (some value)) .save

def deleteFromService (service user : String) : KeyringOp Unit :=
  Op.write (fun keyring => Function.update keyring (service, user) none) .delete

/-- `let _ = …`. -/
def ignore (op : KeyringOp Unit) : KeyringOp Unit := do
  let _ ← op.attempt

/-- The value of a manifest, from its chunks. -/
def readChunks (service user generation : String) : List Nat → String → KeyringOp String
  | [], value => return value
  | index :: indices, value => do
    match ← loadRawFromService service (chunkUser user generation index) with
    | none => Op.throw .missingChunk
    | some chunk => readChunks service user generation indices (value ++ chunk)

def loadSecretFromService (service user : String) : KeyringOp (Option String) := do
  match ← loadRawFromService service user with
  | none => return none
  | some stored =>
    if startsWith stored manifestPrefix then do
      let manifest ← Op.ofExcept (decodeManifest codec stored)
      let value ← readChunks service user manifest.generation (List.range manifest.count) ""
      if codec.sha256Hex value = manifest.sha256 then return some value else Op.throw .checksum
    else
      return if trim stored = "" then none else some (trim stored)

/-- The attempts of `verify_saved_secret` that are left, with the last error. -/
def verifyAttempts (service user expected : String) : Nat → Option KeyringError → KeyringOp Unit
  | 0, lastError => Op.throw (lastError.getD .unverified)
  | attempts + 1, _ => do
    match ← (loadSecretFromService codec service user).attempt with
    | .ok value =>
      if value = some expected then return else verifyAttempts service user expected attempts none
    | .error e => verifyAttempts service user expected attempts (some e)

def verifySavedSecret (service user expected : String) : KeyringOp Unit :=
  verifyAttempts codec service user expected readbackAttempts none

def restoreRawSecret (service user : String) : Option String → KeyringOp Unit
  | some value => setPassword service user value
  | none => deleteFromService service user

/-- The first error of the deletions, if any. -/
def deleteChunks (service user generation : String) : List Nat → Option KeyringError → KeyringOp (Option KeyringError)
  | [], firstError => return firstError
  | index :: indices, firstError => do
    match ← (deleteFromService service (chunkUser user generation index)).attempt with
    | .ok _ => deleteChunks service user generation indices firstError
    | .error e => deleteChunks service user generation indices (firstError.or (some e))

def deleteManifestChunksResult (service user : String) (manifest : SecretManifest) : KeyringOp Unit := do
  match ← deleteChunks service user manifest.generation (List.range manifest.count) none with
  | none => return
  | some e => Op.throw e

def deleteManifestChunks (service user : String) (manifest : SecretManifest) : KeyringOp Unit :=
  ignore (deleteManifestChunksResult service user manifest)

/-- `for written_user in written_users { let _ = delete_from_service(…); }`. -/
def deleteWritten (service : String) : List String → KeyringOp Unit
  | [] => return
  | user :: users => do
    ignore (deleteFromService service user)
    deleteWritten service users

/-- Writes the chunks after those that were written. -/
def writeChunks (service user generation : String) : List String → List String → KeyringOp (List String)
  | [], writtenUsers => return writtenUsers
  | chunk :: chunks, writtenUsers => do
    let chunkUser := chunkUser user generation writtenUsers.length
    match ← (setPassword service chunkUser chunk).attempt with
    | .ok _ => writeChunks service user generation chunks (writtenUsers ++ [chunkUser])
    | .error e => do
      deleteWritten service writtenUsers
      Op.throw e

/-- The manifest of a value that is saved in chunks. -/
def manifestOf (generation value : String) : SecretManifest :=
  ⟨manifestVersion, generation, (splitSecret value).length, codec.sha256Hex value⟩

/-- `save_to_service`. The new generation, a UUID, is an argument. -/
def saveToService (generation service user value : String) : KeyringOp Unit := do
  let previousRaw ← loadRawFromService service user
  let previousManifest := previousRaw.bind fun stored => (decodeManifest codec stored).toOption
  let cleanUp : KeyringOp Unit :=
    match previousManifest with
    | some manifest => deleteManifestChunks service user manifest
    | none => return
  if utf16Units value ≤ chunkUtf16Units then do
    setPassword service user value
    match ← (verifySavedSecret codec service user value).attempt with
    | .error e => do
      restoreRawSecret service user previousRaw
      Op.throw e
    | .ok _ => cleanUp
  else if maxChunks < (splitSecret value).length then Op.throw .tooLarge
  else do
    let writtenUsers ← writeChunks service user generation (splitSecret value) []
    let manifest := manifestOf codec generation value
    match ← (setPassword service user (encodeManifest codec manifest)).attempt with
    | .error e => do
      deleteWritten service writtenUsers
      Op.throw e
    | .ok _ =>
      match ← (verifySavedSecret codec service user value).attempt with
      | .error e => do
        let restore ← (restoreRawSecret service user previousRaw).attempt
        deleteManifestChunks service user manifest
        Op.ofExcept restore
        Op.throw e
      | .ok _ => cleanUp

def deleteSecretFromService (service user : String) : KeyringOp Unit := do
  let stored ← loadRawFromService service user
  let manifest := stored.bind fun stored => (decodeManifest codec stored).toOption
  deleteFromService service user
  match manifest with
  | some manifest => deleteManifestChunksResult service user manifest
  | none => return

end

end Zenith.Secrets
