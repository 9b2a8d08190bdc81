import Zenith.Lib.Bytes
import Zenith.Lib.Text

/-!
# Texts that stand for other texts

What encodings keep: the UTF-8 bytes of a text, the hexadecimal digits of bytes, and the decimal digits of a
number, also behind a separator. `RunsTogether`
is the other side: two texts that are put one after the other without a mark that is in neither may give
the same text as two others (`append_eq_append_iff`).
-/

namespace Zenith.Bytes

open Zenith.Text

theorem utf8_injective {s t : String} (h : utf8 s = utf8 t) : s = t := by
  have hbytes : s.toList.utf8Encode = t.toList.utf8Encode := congrArg List.toByteArray h
  have hdecoded : ∀ l : List Char, l.utf8Encode.utf8Decode? = some l.toArray :=
    fun _ => List.utf8Decode?_utf8Encode
  have harrays := (hdecoded s.toList).symm.trans ((congrArg _ hbytes).trans (hdecoded t.toList))
  exact String.toList_injective (List.toArray_inj (Option.some.inj harrays))

theorem utf8_append (s t : String) : utf8 (s ++ t) = utf8 s ++ utf8 t := by
  rw [utf8, String.toList_append, List.flatMap_append]
  rfl

theorem utf8_ofList (chars : List Char) : utf8 (String.ofList chars) = chars.flatMap String.utf8EncodeChar := by
  rw [utf8, String.toList_ofList]

/-! ## Hexadecimal digits -/

theorem hexDigit_mod (n : Nat) : hexDigit (n % 16) = hexDigit n := by
  rw [hexDigit, hexDigit, Nat.mod_mod]

theorem hexDigit_injective {m n : Nat} (hm : m < 16) (hn : n < 16) (h : hexDigit m = hexDigit n) :
    m = n := by
  have hall : ∀ m : Fin 16, ∀ n : Fin 16, hexDigit m = hexDigit n → m = n := by decide
  exact congrArg Fin.val (hall ⟨m, hm⟩ ⟨n, hn⟩ h)

theorem toLower_hexDigit (n : Nat) : (hexDigit n).toLower = hexDigit n := by
  have hall : ∀ n : Fin 16, (hexDigit n).toLower = hexDigit n := by decide
  rw [← hexDigit_mod]
  exact hall ⟨n % 16, Nat.mod_lt n (by decide)⟩

theorem hexEncode_injective {bytes bytes' : List UInt8} (h : hexEncode bytes = hexEncode bytes') :
    bytes = bytes' := by
  have hdigits := String.ofList_injective h
  clear h
  induction bytes generalizing bytes' with
  | nil =>
    cases bytes' with
    | nil => rfl
    | cons byte bytes' => exact nomatch hdigits
  | cons byte bytes ih =>
    cases bytes' with
    | nil => exact nomatch hdigits
    | cons byte' bytes' =>
      simp only [List.flatMap_cons, List.cons_append, List.nil_append, List.cons.injEq] at hdigits
      obtain ⟨hhigh, hlow, hrest⟩ := hdigits
      have hbyte := byte.toNat_lt
      have hbyte' := byte'.toNat_lt
      have hhigh := hexDigit_injective (by omega) (by omega) hhigh
      rw [← hexDigit_mod, ← hexDigit_mod byte'.toNat] at hlow
      have hlow := hexDigit_injective (by omega) (by omega) hlow
      rw [UInt8.toNat_inj.mp (show byte.toNat = byte'.toNat by omega), ih hrest]

theorem asciiLower_hexEncode (bytes : List UInt8) : asciiLower (hexEncode bytes) = hexEncode bytes := by
  rw [asciiLower, hexEncode, String.toList_ofList]
  refine congrArg String.ofList ?_
  induction bytes with
  | nil => rfl
  | cons byte bytes ih =>
    simp only [List.flatMap_cons, List.map_append, List.map_cons, List.map_nil, toLower_hexDigit, ih]

end Zenith.Bytes

namespace Zenith.Text

/-- Two pairs of different texts that are the same text when they are put together: one starts with the
other's first part and the beginning of its second. -/
def RunsTogether (head tail head' tail' : String) : Prop :=
  ∃ x, x ≠ "" ∧ (head' = head ++ x ∧ tail = x ++ tail' ∨ head = head' ++ x ∧ tail' = x ++ tail)

theorem append_eq_append_iff (head tail head' tail' : String) :
    head ++ tail = head' ++ tail' ↔
      head = head' ∧ tail = tail' ∨ RunsTogether head tail head' tail' := by
  constructor
  · intro h
    have hchars := congrArg String.toList h
    rw [String.toList_append, String.toList_append, List.append_eq_append_iff] at hchars
    rcases hchars with ⟨x, hhead, htail⟩ | ⟨x, hhead, htail⟩
    · by_cases hx : x = []
      · rw [hx, List.append_nil] at hhead
        rw [hx, List.nil_append] at htail
        exact .inl ⟨String.toList_injective hhead.symm, String.toList_injective htail⟩
      · refine .inr ⟨String.ofList x, fun hempty => hx ?_, .inl ⟨?_, ?_⟩⟩
        · exact String.ofList_injective (hempty.trans String.ofList_nil.symm)
        · exact String.toList_injective (by rw [String.toList_append, String.toList_ofList, hhead])
        · exact String.toList_injective (by rw [String.toList_append, String.toList_ofList, htail])
    · by_cases hx : x = []
      · rw [hx, List.append_nil] at hhead
        rw [hx, List.nil_append] at htail
        exact .inl ⟨String.toList_injective hhead, String.toList_injective htail.symm⟩
      · refine .inr ⟨String.ofList x, fun hempty => hx ?_, .inr ⟨?_, ?_⟩⟩
        · exact String.ofList_injective (hempty.trans String.ofList_nil.symm)
        · exact String.toList_injective (by rw [String.toList_append, String.toList_ofList, hhead])
        · exact String.toList_injective (by rw [String.toList_append, String.toList_ofList, htail])
  · rintro (⟨rfl, rfl⟩ | ⟨x, -, ⟨rfl, rfl⟩ | ⟨rfl, rfl⟩⟩)
    · rfl
    · rw [String.append_assoc]
    · rw [String.append_assoc]

/-! ## Numbers and separators -/

theorem toString_injective {m n : Nat} (h : toString m = toString n) : m = n := by
  have hdigits : Nat.toDigits 10 m = Nat.toDigits 10 n := by
    rw [← Nat.toList_repr, ← Nat.toList_repr]
    exact congrArg String.toList h
  rw [← Nat.ofDigitChars_toDigits (b := 10) (n := m) (by decide) (by decide), hdigits,
    Nat.ofDigitChars_toDigits (by decide) (by decide)]

theorem isDigit_of_mem_toString {n : Nat} {c : Char} (h : c ∈ (toString n).toList) : c.isDigit = true := by
  have hdigits : (toString n).toList = Nat.toDigits 10 n := Nat.toList_repr
  rw [hdigits] at h
  exact Nat.isDigit_of_mem_toDigits (by decide) (by decide) h

/-- What follows the last separator. -/
theorem last_part_inj {sep : Char} {front last front' last' : List Char} (hlast : sep ∉ last)
    (hlast' : sep ∉ last') (h : front ++ sep :: last = front' ++ sep :: last') : last = last' := by
  rcases List.append_eq_append_iff.mp h with ⟨x, -, hx⟩ | ⟨x, -, hx⟩
  · cases x with
    | nil => exact (List.cons.inj hx).2
    | cons c x =>
      refine absurd ?_ hlast
      rw [(List.cons.inj hx).2]
      exact List.mem_append_right x List.mem_cons_self
  · cases x with
    | nil => exact (List.cons.inj hx).2.symm
    | cons c x =>
      refine absurd ?_ hlast'
      rw [(List.cons.inj hx).2]
      exact List.mem_append_right x List.mem_cons_self

end Zenith.Text
