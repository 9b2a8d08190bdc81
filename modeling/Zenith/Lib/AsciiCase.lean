import Mathlib
import Zenith.Lib.Bytes
import Zenith.Lib.Text

/-!
# ASCII letters

`asciiLower` changes `A` to `Z` only. White space, control characters and the number of bytes stay as they are, so
that trimming and lower-casing commute.
-/

namespace Zenith.Text

theorem toNat_toLower (c : Char) :
    c.toLower = c ∨ (65 ≤ c.toNat ∧ c.toNat ≤ 90 ∧ c.toLower.toNat = c.toNat + 32) := by
  by_cases h : c.isUpper = true
  · refine .inr ?_
    have hbounds : 65 ≤ c.toNat ∧ c.toNat ≤ 90 := by
      simp only [Char.isUpper, decide_eq_true_eq] at h
      exact ⟨UInt32.le_iff_toNat_le.mp h.1, UInt32.le_iff_toNat_le.mp h.2⟩
    refine ⟨hbounds.1, hbounds.2, ?_⟩
    rw [Char.toLower_eq_of_isUpper h, Char.toNat_ofNat, if_pos (.inl (by omega))]
  · exact .inl (Char.toLower_eq_of_not_isUpper h)

theorem toNat_of_isAlphanum {c : Char} (h : c.isAlphanum = true) : 48 ≤ c.toNat ∧ c.toNat ≤ 122 := by
  simp only [Char.isAlphanum, Char.isAlpha, Char.isUpper, Char.isLower, Char.isDigit, Bool.or_eq_true, Bool.and_eq_true,
    decide_eq_true_eq] at h
  rcases h with (h | h) | h
  · exact ⟨le_trans (by decide) (UInt32.le_iff_toNat_le.mp h.1), le_trans (UInt32.le_iff_toNat_le.mp h.2) (by decide)⟩
  · exact ⟨le_trans (by decide) (UInt32.le_iff_toNat_le.mp h.1), le_trans (UInt32.le_iff_toNat_le.mp h.2) (by decide)⟩
  · exact ⟨le_trans (by decide) (UInt32.le_iff_toNat_le.mp h.1), le_trans (UInt32.le_iff_toNat_le.mp h.2) (by decide)⟩

theorem isWhitespace_toLower (c : Char) : isWhitespace c.toLower = isWhitespace c := by
  rcases toNat_toLower c with h | ⟨hlow, hhigh, h⟩
  · rw [h]
  · rw [Bool.eq_iff_iff]
    simp only [isWhitespace, h, Bool.or_eq_true, Bool.and_eq_true, decide_eq_true_eq, beq_iff_eq]
    omega

theorem isControl_toLower (c : Char) : isControl c.toLower = isControl c := by
  rcases toNat_toLower c with h | ⟨hlow, hhigh, h⟩
  · rw [h]
  · rw [Bool.eq_iff_iff]
    simp only [isControl, h, Bool.or_eq_true, Bool.and_eq_true, decide_eq_true_eq]
    omega

theorem utf8Size_of_lt {c : Char} (h : c.toNat < 128) : c.utf8Size = 1 := by
  have hval : c.val ≤ 127 := UInt32.le_iff_toNat_le.mpr (Nat.le_of_lt_succ h)
  exact if_pos hval

theorem utf8Size_toLower (c : Char) : c.toLower.utf8Size = c.utf8Size := by
  rcases toNat_toLower c with h | ⟨hlow, hhigh, h⟩
  · rw [h]
  · rw [utf8Size_of_lt (c := c) (by omega), utf8Size_of_lt (c := c.toLower) (by omega)]

theorem dropWhile_map_toLower (cs : List Char) :
    (cs.map Char.toLower).dropWhile isWhitespace = (cs.dropWhile isWhitespace).map Char.toLower := by
  rw [List.dropWhile_map, show isWhitespace ∘ Char.toLower = isWhitespace from funext isWhitespace_toLower]

theorem trim_asciiLower (s : String) : trim (asciiLower s) = asciiLower (trim s) := by
  simp only [trim, asciiLower, String.toList_ofList, dropWhile_map_toLower, ← List.map_reverse]

theorem length_utf8_asciiLower (s : String) : (Bytes.utf8 (asciiLower s)).length = (Bytes.utf8 s).length := by
  simp [Bytes.utf8, asciiLower, List.length_flatMap, List.map_map, Function.comp_def, utf8Size_toLower]
theorem all_isControl_asciiLower (s : String) : (asciiLower s).toList.any isControl = s.toList.any isControl := by
  rw [asciiLower, String.toList_ofList, List.any_map]
  exact congrArg s.toList.any (funext isControl_toLower)

theorem asciiLower_eq_empty {s : String} : asciiLower s = "" ↔ s = "" := by
  rw [← String.toList_inj, ← @String.toList_inj s, asciiLower, String.toList_ofList]
  exact List.map_eq_nil_iff

/-- What is trimmed and in lower case stays so. -/
theorem trim_asciiLower_trim (s : String) : trim (asciiLower (trim s)) = asciiLower (trim s) := by
  rw [trim_asciiLower, trim_trim]

end Zenith.Text
