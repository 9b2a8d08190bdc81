import Mathlib

/-!
# Text operations of the host language

The program works on `String` keys with the ASCII and Unicode helpers of its standard library.
This module gives those helpers as executable functions on Lean strings:

* `asciiLower` and `eqIgnoreAsciiCase`, which touch `A`..`Z` only;
* `trim`, which removes Unicode white space at both ends;
* `isControl`, the general category `Cc`;
* `bytePrefix?`, the slice of the first `n` bytes, defined only on a character boundary.
-/

namespace Zenith.Text

/-- `str::to_ascii_lowercase`. -/
def asciiLower (s : String) : String :=
  String.ofList (s.toList.map Char.toLower)

/-- `str::eq_ignore_ascii_case`. -/
def eqIgnoreAsciiCase (a b : String) : Bool :=
  decide (asciiLower a = asciiLower b)

/-- `char::is_whitespace`: the code points with the Unicode property `White_Space`. -/
def isWhitespace (c : Char) : Bool :=
  let n := c.toNat
  (9 ≤ n && n ≤ 13) || n == 0x20 || n == 0x85 || n == 0xA0 || n == 0x1680 ||
    (0x2000 ≤ n && n ≤ 0x200A) || n == 0x2028 || n == 0x2029 || n == 0x202F || n == 0x205F ||
    n == 0x3000

/-- `char::is_control`: the C0 and C1 control codes. -/
def isControl (c : Char) : Bool :=
  let n := c.toNat
  n < 0x20 || (0x7F ≤ n && n ≤ 0x9F)

/-- `str::trim`. -/
def trim (s : String) : String :=
  String.ofList ((s.toList.dropWhile isWhitespace).reverse.dropWhile isWhitespace).reverse

/-- `str::trim_end_matches` with one character. -/
def trimEndMatches (s : String) (c : Char) : String :=
  String.ofList (s.toList.reverse.dropWhile (· = c)).reverse

/-- `str::starts_with`. -/
def startsWith (s lead : String) : Bool :=
  lead.toList.isPrefixOf s.toList

/-- `str::ends_with`. -/
def endsWith (s tail : String) : Bool :=
  tail.toList.isSuffixOf s.toList

/-- `str::get(..n)` on the characters: the first `n` bytes, when they end on a character
boundary. -/
def bytePrefix? : List Char → Nat → Option (List Char)
  | _, 0 => some []
  | [], _ + 1 => none
  | c :: cs, n + 1 =>
    if c.utf8Size ≤ n + 1 then (bytePrefix? cs (n + 1 - c.utf8Size)).map (c :: ·) else none

/-- `str::strip_suffix` for one character. -/
def stripSuffixChar (s : String) (c : Char) : Option String :=
  if s.toList.getLast? = some c then some (String.ofList s.toList.dropLast) else none

/-- `str::strip_prefix`. -/
def stripPrefix? (s lead : String) : Option String :=
  (lead.toList.isPrefixOf? s.toList).map String.ofList

theorem dropWhile_dropWhile (p : Char → Bool) (l : List Char) :
    (l.dropWhile p).dropWhile p = l.dropWhile p := List.dropWhile_idempotent p l

/-- What is trimmed at the front stays so when the end is trimmed. -/
theorem dropWhile_reverse_dropWhile (p : Char → Bool) (l : List Char) :
    ((l.dropWhile p).reverse.dropWhile p).reverse.dropWhile p =
      ((l.dropWhile p).reverse.dropWhile p).reverse := by
  obtain ⟨front, hfront⟩ := List.dropWhile_suffix p (l := (l.dropWhile p).reverse)
  cases hback : ((l.dropWhile p).reverse.dropWhile p).reverse with
  | nil => rfl
  | cons c back =>
    have hl : l.dropWhile p = c :: (back ++ front.reverse) := by
      rw [← List.reverse_reverse (l.dropWhile p), ← hfront, List.reverse_append, hback,
        List.cons_append]
    have hc := List.head?_dropWhile_not p l
    rw [hl] at hc
    exact List.dropWhile_cons_of_neg (ne_true_of_eq_false hc)

@[simp] theorem trim_trim (s : String) : trim (trim s) = trim s := by
  simp only [trim, String.toList_ofList, dropWhile_reverse_dropWhile, List.reverse_reverse,
    dropWhile_dropWhile]

@[simp] theorem trimEndMatches_idem (s : String) (c : Char) :
    trimEndMatches (trimEndMatches s c) c = trimEndMatches s c := by
  simp only [trimEndMatches, String.toList_ofList, List.reverse_reverse, dropWhile_dropWhile]

@[simp] theorem asciiLower_idem (s : String) : asciiLower (asciiLower s) = asciiLower s := by
  simp [asciiLower, Function.comp_def]

@[simp] theorem asciiLower_empty : asciiLower "" = "" := by decide

end Zenith.Text
