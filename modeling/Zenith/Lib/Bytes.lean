import Mathlib

/-!
# Byte strings

Bytes are lists of `UInt8`. This module has the conversions the program makes between text,
integers and bytes: the UTF-8 bytes of a string, lower-case hexadecimal, and 64-bit integers in
little-endian order.
-/

namespace Zenith.Bytes

/-- `str::as_bytes`. -/
def utf8 (s : String) : List UInt8 := s.toList.flatMap String.utf8EncodeChar

def hexDigit (n : Nat) : Char := (Nat.toDigits 16 (n % 16)).headD '0'

/-- `hex::encode`. -/
def hexEncode (bytes : List UInt8) : String :=
  String.ofList (bytes.flatMap fun byte => [hexDigit (byte.toNat / 16), hexDigit byte.toNat])

/-- `u64::to_le_bytes`. -/
def u64LeBytes (n : Nat) : List UInt8 :=
  (List.range 8).map fun i => UInt8.ofNat (n / 256 ^ i)

/-- `u64::from_le_bytes` on the first eight bytes. -/
def u64OfLeBytes (bytes : List UInt8) : Nat :=
  (bytes.take 8).foldr (fun byte n => byte.toNat + 256 * n) 0

end Zenith.Bytes
