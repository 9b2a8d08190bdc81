import Mathlib
import Zenith.Lib.Bytes
import Zenith.Lib.Faults
import Zenith.Lib.Tables

/-!
# The vault file

`store/vault.rs`. The secrets of a process are its `data`, and every mutation writes all of them to the vault
file: the JSON is encrypted and sealed behind a header, written to a temporary file and renamed into place,
with the former file kept as a backup in between. Opening the vault takes the backup for the file where the
file itself is gone.

`Codec` is what is not in the repository: `serde_json` and the cipher. A temporary file has a name of its own
for every mutation and is never looked for again, so `Disk` has one place for it.
-/

namespace Zenith.VaultStore

open Std Zenith.Faults Zenith.Tables

def magic : List UInt8 := [0x5A, 0x44, 0x56, 0x31]

def nonceBytes : Nat := 12

def maxSecretBytes : Nat := 4 * 1024 * 1024

def maxVaultBytes : Nat := 64 * 1024 * 1024

def maxValues : Nat := 8192

/-- The field `values`. -/
abbrev VaultData := Table String String

abbrev Key := Vector UInt8 32

abbrev Nonce := Vector UInt8 nonceBytes

structure Codec where
  toVec : VaultData → List UInt8
  fromSlice : List UInt8 → Option VaultData
  encrypt : Key → Nonce → List UInt8 → Option (List UInt8)
  decrypt : Key → List UInt8 → List UInt8 → Option (List UInt8)

/-- The errors of the module; `message` has their texts, with the reason that the system gives. -/
inductive VaultError
  | io
  | secretSize
  | entryLimit
  | sizeLimit
  | encryption
  | unsafeFile
  | header
  | decryption
  | payload
  | entryLimitExceeded
  | invalidValue
  | reference
deriving DecidableEq, Repr

/-! ## The files -/

structure Disk where
  path : Option (List UInt8)
  backup : Option (List UInt8)
  temporary : Option (List UInt8)
deriving DecidableEq, Repr

structure Vault where
  data : VaultData
  disk : Disk

abbrev VaultOp := Op Vault VaultError

def writeDisk (update : Disk → Disk) : VaultOp Unit :=
  Op.write (fun vault => { vault with disk := update vault.disk }) .io

def setData (update : VaultData → VaultData) : VaultOp Unit :=
  Op.modify fun vault => { vault with data := update vault.data }

/-- `let _ = …`. -/
def ignore (op : VaultOp Unit) : VaultOp Unit := do
  let _ ← op.attempt

def createTemporary : VaultOp Unit := writeDisk fun disk => { disk with temporary := some [] }

def writeAll (bytes : List UInt8) : VaultOp Unit := writeDisk fun disk => { disk with temporary := some bytes }

def syncAll : VaultOp Unit := writeDisk id

def removeTemporary : VaultOp Unit := writeDisk fun disk => { disk with temporary := none }

def removeBackup : VaultOp Unit := writeDisk fun disk => { disk with backup := none }

/-- `rename(path, backup)`. -/
def setAside : VaultOp Unit := writeDisk fun disk => { disk with path := none, backup := disk.path }

/-- `rename(backup, path)`. -/
def putBack : VaultOp Unit := writeDisk fun disk => { disk with path := disk.backup, backup := none }

/-- `rename(temporary, path)`. -/
def install : VaultOp Unit := writeDisk fun disk => { disk with path := disk.temporary, temporary := none }

def clearBackup : VaultOp Unit := do
  if (← Op.get).disk.backup.isSome then
    removeBackup

def setPathAside : VaultOp Unit := do
  if (← Op.get).disk.path.isSome then
    setAside

/-- What comes before the new file is renamed into place. -/
def prepare (bytes : List UInt8) : VaultOp Unit := do
  createTemporary
  writeAll bytes
  syncAll
  clearBackup
  setPathAside

def putBackIfThere : VaultOp Unit := do
  if (← Op.get).disk.backup.isSome then
    ignore putBack

def replace (bytes : List UInt8) : VaultOp Unit := do
  prepare bytes
  match ← install.attempt with
  | .error e => do
    putBackIfThere
    Op.throw e
  | .ok () => ignore removeBackup

def atomicReplace (bytes : List UInt8) : VaultOp Unit := do
  match ← (replace bytes).attempt with
  | .error e => do
    ignore removeTemporary
    Op.throw e
  | .ok () => return ()

/-! ## Reading and writing the vault -/

/-- `is_ascii_alphanumeric` or one of `-`, `_` and `:`, for each byte. -/
def isRefChar (c : Char) : Bool :=
  ('0' ≤ c && c ≤ '9') || ('A' ≤ c && c ≤ 'Z') || ('a' ≤ c && c ≤ 'z') || c = '-' || c = '_' || c = ':'

def validateRef (value : String) : Except VaultError Unit :=
  if value = "" ∨ 128 < (Bytes.utf8 value).length ∨ !value.toList.all isRefChar then .error .reference else .ok ()

def badValue (value : String) : Bool := value = "" || maxSecretBytes < (Bytes.utf8 value).length

def validateEntry (entry : String × String) : Except VaultError Unit := do
  validateRef entry.1
  if badValue entry.2 then .error .invalidValue else .ok ()

def validateData (data : VaultData) : Except VaultError Unit :=
  if maxValues < data.size then .error .entryLimitExceeded else data.toList.forM validateEntry

section
variable (codec : Codec) (key : Key)

def decryptFile (bytes : List UInt8) : Except VaultError VaultData :=
  if maxVaultBytes < bytes.length then .error .unsafeFile
  else if bytes.length ≤ magic.length + nonceBytes ∨ bytes.take magic.length ≠ magic then .error .header
  else
    match codec.decrypt key ((bytes.drop magic.length).take nonceBytes) (bytes.drop (magic.length + nonceBytes)) with
    | none => .error .decryption
    | some plaintext =>
      match codec.fromSlice plaintext with
      | none => .error .payload
      | some data => .ok data

/-- The file of the vault, where there is one. -/
def readFile : Option (List UInt8) → Except VaultError VaultData
  | some bytes => decryptFile codec key bytes
  | none => .ok ∅

def recoverBackup : VaultOp Unit := do
  let disk := (← Op.get).disk
  if disk.path.isNone && disk.backup.isSome then
    putBack

/-- `Vault::open`. -/
def openVault : VaultOp Unit := do
  recoverBackup
  let data ← Op.ofExcept (readFile codec key (← Op.get).disk.path)
  Op.ofExcept (validateData data)
  setData fun _ => data

def sealed (nonce : Nonce) (data : VaultData) : Except VaultError (List UInt8) :=
  if maxVaultBytes < (codec.toVec data).length then .error .sizeLimit
  else
    match codec.encrypt key nonce (codec.toVec data) with
    | none => .error .encryption
    | some ciphertext => .ok (magic ++ nonce.toList ++ ciphertext)

/-- The data of the process are what is written. -/
def persist (nonce : Nonce) : VaultOp Unit := do
  let bytes ← Op.ofExcept (sealed codec key nonce (← Op.get).data)
  atomicReplace bytes

/-- The former value of a reference, back in its place. -/
def putBackValue (secretRef : String) (previous : Option String) (data : VaultData) : VaultData :=
  match previous with
  | some value => data.insert secretRef value
  | none => data.erase secretRef

def persistOr (nonce : Nonce) (undo : VaultData → VaultData) : VaultOp Unit := do
  match ← (persist codec key nonce).attempt with
  | .error e => do
    setData undo
    Op.throw e
  | .ok () => return ()

def checkSave (secretRef value : String) (data : VaultData) : Except VaultError Unit := do
  validateRef secretRef
  if badValue value then .error .secretSize
  else if !data.contains secretRef && maxValues ≤ data.size then .error .entryLimit
  else .ok ()

def save (nonce : Nonce) (secretRef value : String) : VaultOp Unit := do
  let data := (← Op.get).data
  Op.ofExcept (checkSave secretRef value data)
  setData fun data => data.insert secretRef value
  persistOr codec key nonce (putBackValue secretRef data[secretRef]?)

/-- Whether there was a value. -/
def delete (nonce : Nonce) (secretRef : String) : VaultOp Bool := do
  Op.ofExcept (validateRef secretRef)
  let data := (← Op.get).data
  match data[secretRef]? with
  | none => return false
  | some previous => do
    setData fun data => data.erase secretRef
    persistOr codec key nonce (putBackValue secretRef (some previous))
    return true

end

end Zenith.VaultStore
