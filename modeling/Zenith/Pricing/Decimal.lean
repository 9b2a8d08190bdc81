import Mathlib
import Zenith.Lib.Text

/-!
# Decimal prices

`pricing/decimal.rs`: a price arrives as decimal text, perhaps in scientific notation, and is read
without floating point into a whole number of the smallest unit, rounded to the nearest with halves
up. `scaledPrice` says what that number is for the rational the text denotes. `Written` is the
grammar of the texts: digits with at most one point, and an optional exponent.

The parser moves the point by `shift` places. It gives up on shifts beyond 38 places: upwards with
the error that a price that large deserves, downwards with a price of zero, which is never a price
(`parse_scaledPrice_iff`).
-/

namespace Zenith.Pricing

open Zenith.Text

/-- The errors of reading a catalog. -/
inductive PricingError
  | invalidAmount
  | overflow
  | invalidRecord
  | invalidCatalog
  | cacheTooLarge
deriving DecidableEq, Repr

/-! ## Parsing -/

/-- `str::split_once` at the first character of a set. -/
def splitOnce (separator : Char → Bool) (chars : List Char) : Option (List Char × List Char) :=
  match chars.dropWhile (!separator ·) with
  | [] => none
  | _ :: after => some (chars.takeWhile (!separator ·), after)

/-- The number that ASCII digits stand for. -/
def digitsValue (digits : List Char) : Nat :=
  digits.foldl (fun n c => 10 * n + (c.toNat - 48)) 0

/-- Whether a number is negative, and what follows its sign. -/
def splitSign : List Char → Bool × List Char
  | '-' :: digits => (true, digits)
  | '+' :: digits => (false, digits)
  | digits => (false, digits)

/-- `str::parse::<i32>`: digits after an optional sign. -/
def parseI32 (chars : List Char) : Option Int :=
  let (negative, digits) := splitSign chars
  if digits = [] || !digits.all Char.isDigit then none
  else
    let n : Int := if negative then -digitsValue digits else digitsValue digits
    if -2 ^ 31 ≤ n ∧ n < 2 ^ 31 then some n else none

/-- The `s` of a scale `10 ^ s`. -/
def decimalDigits (value : Nat) : Option Nat :=
  if value = 0 then none
  else if value % 10 = 0 then (decimalDigits (value / 10)).map (· + 1)
  else if value = 1 then some 0
  else none
termination_by value
decreasing_by omega

/-- The last checks on a result: it fits `u64` and is positive. -/
def checkedPrice (result : Nat) : Except PricingError Nat :=
  if 2 ^ 64 ≤ result then .error .overflow
  else if result = 0 then .error .invalidAmount
  else .ok result

/-- The digits with the point moved `shift` places to the right, or `-shift` to the left. -/
def shifted (digits : Nat) (shift : Int) : Except PricingError Nat :=
  if 0 ≤ shift then
    let power := shift.toNat
    if 38 < power then .error .overflow
    else if 2 ^ 128 ≤ digits * 10 ^ power then .error .overflow
    else checkedPrice (digits * 10 ^ power)
  else
    let power := shift.natAbs
    -- The source returns here, ahead of the check that the result is positive.
    if 38 < power then .ok 0
    else
      let divisor := 10 ^ power
      checkedPrice (digits / divisor + if (divisor + 1) / 2 ≤ digits % divisor then 1 else 0)

/-- The mantissa and the exponent of a text. -/
def splitExponent (chars : List Char) : Option (List Char × Int) :=
  match splitOnce (fun c => c = 'e' || c = 'E') chars with
  | some (mantissa, exponent) => (parseI32 exponent).map (mantissa, ·)
  | none => some (chars, 0)

def parseDecimalToScaled (text : String) (scale : Nat) : Except PricingError Nat :=
  let chars := (trim text).toList
  if chars = [] || chars.head? = some '-' || chars.head? = some '+' then .error .invalidAmount
  else
    match splitExponent chars with
    | none => .error .invalidAmount
    | some (mantissa, exponent) =>
      if 1 < mantissa.count '.' then .error .invalidAmount
      else
        let (whole, fractional) := (splitOnce (· = '.') mantissa).getD (mantissa, [])
        if (whole = [] && fractional = []) || !whole.all Char.isDigit ||
            !fractional.all Char.isDigit then .error .invalidAmount
        else
          let digits := (whole ++ fractional).dropWhile (· = '0')
          if digits = [] then .error .invalidAmount
          else if 38 < digits.length || 38 < fractional.length then .error .invalidAmount
          else
            match decimalDigits scale with
            | none => .error .invalidAmount
            | some scaleDigits =>
              shifted (digitsValue digits) (exponent + scaleDigits - fractional.length)

/-! ## Texts and what they denote -/

/-- The part of a text from the exponent marker on. -/
inductive ExponentText : List Char → Int → Prop
  | absent : ExponentText [] 0
  | written {marker : Char} {sign digits : List Char} {exponent : Int}
      (marked : marker = 'e' ∨ marker = 'E')
      (signed : (sign = [] ∨ sign = ['+']) ∧ exponent = digitsValue digits ∨
        sign = ['-'] ∧ exponent = -digitsValue digits)
      (nonempty : digits ≠ []) (digital : ∀ c ∈ digits, c.isDigit = true)
      (fits : -2 ^ 31 ≤ exponent ∧ exponent < 2 ^ 31) :
      ExponentText (marker :: (sign ++ digits)) exponent

/-- The trimmed text is `whole[.fractional][(e|E)[+-]digits]` with at least one digit in front of the
exponent. -/
structure Written (text : String) (whole fractional : List Char) (exponent : Int) : Prop where
  chars : ∃ point suffix, (trim text).toList = whole ++ point ++ suffix ∧
    (point = [] ∧ fractional = [] ∨ point = '.' :: fractional) ∧ ExponentText suffix exponent
  wholeDigits : ∀ c ∈ whole, c.isDigit = true
  fractionalDigits : ∀ c ∈ fractional, c.isDigit = true
  nonempty : whole ++ fractional ≠ []

/-- The rational that a text denotes. -/
def denoted (whole fractional : List Char) (exponent : Int) : ℚ :=
  digitsValue (whole ++ fractional) * (10 : ℚ) ^ (exponent - fractional.length)

/-- The value in units of `10 ^ -s`, rounded to the nearest with halves up. -/
def scaledPrice (value : ℚ) (s : Nat) : Except PricingError Nat :=
  checkedPrice ⌊value * 10 ^ s + 1 / 2⌋₊

/-! ## Digits -/

theorem digitsValue_append_singleton (digits : List Char) (c : Char) :
    digitsValue (digits ++ [c]) = 10 * digitsValue digits + (c.toNat - 48) := by
  rw [digitsValue, List.foldl_append]
  rfl

theorem toNat_digit_lt {c : Char} (h : c.isDigit = true) : c.toNat - 48 < 10 := by
  simp only [Char.isDigit, ge_iff_le, Bool.and_eq_true, decide_eq_true_eq] at h
  have h57 : c.toNat ≤ 57 := h.2
  omega

theorem toNat_digit_pos {c : Char} (h : c.isDigit = true) (hne : c ≠ '0') : 0 < c.toNat - 48 := by
  simp only [Char.isDigit, ge_iff_le, Bool.and_eq_true, decide_eq_true_eq] at h
  have h48 : 48 ≤ c.toNat := h.1
  have hne48 : c.toNat ≠ 48 := fun heq => hne (Char.toNat_inj.mp heq)
  omega

theorem digitsValue_lt {digits : List Char} (h : ∀ c ∈ digits, c.isDigit = true) :
    digitsValue digits < 10 ^ digits.length := by
  induction digits using List.reverseRecOn with
  | nil => decide
  | append_singleton digits c ih =>
    have hdigits := ih fun d hd => h d (List.mem_append_left _ hd)
    have hc := toNat_digit_lt (h c (by simp))
    rw [digitsValue_append_singleton, List.length_append, List.length_singleton, pow_succ]
    omega

/-- Leading zeros do not count. -/
theorem digitsValue_dropWhile (digits : List Char) :
    digitsValue (digits.dropWhile (· = '0')) = digitsValue digits := by
  induction digits with
  | nil => rfl
  | cons c digits ih =>
    rw [List.dropWhile_cons]
    split
    case isTrue hzero =>
      rw [ih, of_decide_eq_true hzero]
      rfl
    case isFalse => rfl

theorem digitsValue_pos {c : Char} {digits : List Char} (h : 0 < c.toNat - 48) :
    0 < digitsValue (c :: digits) := by
  have hgrow : ∀ (digits : List Char) (n : Nat), 0 < n →
      0 < digits.foldl (fun n c => 10 * n + (c.toNat - 48)) n := by
    intro digits
    induction digits with
    | nil => exact fun _ hn => hn
    | cons d digits ih => exact fun n hn => ih (10 * n + (d.toNat - 48)) (by omega)
  exact hgrow digits (10 * 0 + (c.toNat - 48)) (by omega)

/-- Only zeros are worth nothing. -/
theorem dropWhile_zeros_eq_nil {digits : List Char} (h : ∀ c ∈ digits, c.isDigit = true) :
    digits.dropWhile (· = '0') = [] ↔ digitsValue digits = 0 := by
  rw [← digitsValue_dropWhile digits]
  cases hdrop : digits.dropWhile (· = '0') with
  | nil => simp [digitsValue]
  | cons c rest =>
    have hmem : c ∈ digits :=
      (List.dropWhile_suffix (fun c => decide (c = '0'))).subset (hdrop ▸ List.mem_cons_self)
    have hhead : c ≠ '0' := by
      have hnot := List.head_dropWhile_not (fun c => decide (c = '0'))
        (l := digits) (by rw [hdrop]; exact List.cons_ne_nil c rest)
      simp only [hdrop, List.head_cons] at hnot
      exact of_decide_eq_false hnot
    have hpos := @digitsValue_pos _ rest (toNat_digit_pos (h c hmem) hhead)
    constructor
    · intro hnil
      cases hnil
    · intro hzero
      omega

theorem decimalDigits_pow (s : Nat) : decimalDigits (10 ^ s) = some s := by
  induction s with
  | zero => simp [decimalDigits]
  | succ s ih =>
    have hpos : 10 ^ (s + 1) ≠ 0 := by positivity
    rw [decimalDigits, if_neg hpos, if_pos (by rw [pow_succ]; omega), pow_succ,
      Nat.mul_div_cancel _ (by decide), ih]
    rfl

/-! ## Moving the point -/

/-- Half up: one more from half of the divisor on. -/
theorem floor_div_add_half (digits : Nat) {divisor : Nat} (hpos : 0 < divisor) :
    ⌊(digits : ℚ) / divisor + 1 / 2⌋₊ =
      digits / divisor + if (divisor + 1) / 2 ≤ digits % divisor then 1 else 0 := by
  have hdivisor : (divisor : ℚ) ≠ 0 := by positivity
  have hquotient : (digits : ℚ) / divisor + 1 / 2 =
      ((2 * digits + divisor : Nat) : ℚ) / ((2 * divisor : Nat) : ℚ) := by
    push_cast
    field_simp
  rw [hquotient, Nat.floor_div_eq_div]
  have hsplit := Nat.div_add_mod digits divisor
  have hlt := Nat.mod_lt digits hpos
  set quotient := digits / divisor
  set remainder := digits % divisor
  have hsum : 2 * digits + divisor = 2 * divisor * quotient + (2 * remainder + divisor) := by
    rw [← hsplit]
    ring
  rw [hsum, Nat.mul_add_div (by omega)]
  congr 1
  split
  case isTrue h =>
    rw [Nat.div_eq_of_lt_le] <;> omega
  case isFalse h => exact Nat.div_eq_of_lt (by omega)

/-- Moving the point to the right makes a whole number. -/
theorem shifted_of_nonneg {digits : Nat} (hpos : 0 < digits) {shift : Int} (hshift : 0 ≤ shift) :
    shifted digits shift = checkedPrice ⌊(digits : ℚ) * 10 ^ shift + 1 / 2⌋₊ := by
  obtain ⟨power, rfl⟩ := Int.eq_ofNat_of_zero_le hshift
  have hfloor : ⌊(digits : ℚ) * 10 ^ (power : Int) + 1 / 2⌋₊ = digits * 10 ^ power := by
    have hcast : (digits : ℚ) * 10 ^ (power : Int) + 1 / 2 =
        ((digits * 10 ^ power : Nat) : ℚ) + 1 / 2 := by
      push_cast
      rw [zpow_natCast]
    rw [hcast, add_comm, Nat.floor_add_natCast (by norm_num)]
    norm_num
  rw [hfloor]
  unfold shifted
  rw [if_pos hshift, Int.toNat_natCast]
  dsimp only
  split
  case isTrue hlarge =>
    have hge : 10 ^ 39 ≤ digits * 10 ^ power :=
      le_mul_of_one_le_of_le hpos (Nat.pow_le_pow_right (by decide) hlarge)
    rw [checkedPrice, if_pos (le_trans (by decide) hge)]
  case isFalse =>
    split
    case isTrue hlarge =>
      rw [checkedPrice, if_pos (le_trans (Nat.pow_le_pow_right (by decide) (by decide)) hlarge)]
    case isFalse => rfl

/-- Moving the point to the left divides. -/
theorem shifted_of_neg {digits : Nat} {shift : Int} (hshift : shift < 0) (hsmall : -38 ≤ shift) :
    shifted digits shift = checkedPrice ⌊(digits : ℚ) * 10 ^ shift + 1 / 2⌋₊ := by
  obtain ⟨power, hpower⟩ : ∃ power : Nat, shift = -power := ⟨shift.natAbs, by omega⟩
  subst hpower
  have hquotient : (digits : ℚ) * 10 ^ (-(power : Int)) = (digits : ℚ) / ((10 ^ power : Nat) : ℚ) := by
    rw [zpow_neg, zpow_natCast]
    push_cast
    rfl
  rw [hquotient, floor_div_add_half digits (by positivity)]
  unfold shifted
  rw [if_neg (by omega), Int.natAbs_neg, Int.natAbs_natCast]
  dsimp only
  rw [if_neg (by omega)]

/-- A price that far below the unit rounds to nothing. -/
theorem floor_of_small {digits : Nat} (hlt : digits < 10 ^ 38) {shift : Int} (hshift : shift < -38) :
    ⌊(digits : ℚ) * 10 ^ shift + 1 / 2⌋₊ = 0 := by
  have hpower : (10 : ℚ) ^ shift ≤ 10 ^ (-39 : Int) :=
    zpow_le_zpow_right₀ (by norm_num) (by omega)
  have hdigits : (digits : ℚ) ≤ 10 ^ 38 := by exact_mod_cast hlt.le
  have hbound : (digits : ℚ) * 10 ^ shift ≤ 10 ^ 38 * 10 ^ (-39 : Int) :=
    mul_le_mul hdigits hpower (by positivity) (by positivity)
  have htenth : (10 : ℚ) ^ 38 * 10 ^ (-39 : Int) = 1 / 10 := by norm_num
  rw [htenth] at hbound
  refine Nat.floor_eq_zero.mpr ?_
  linarith

/-! ## Reading written texts -/

theorem splitOnce_append {separator : Char → Bool} {before after : List Char} {c : Char}
    (hbefore : ∀ d ∈ before, separator d = false) (hc : separator c = true) :
    splitOnce separator (before ++ c :: after) = some (before, after) := by
  have hnot : ∀ d ∈ before, (!separator d) = true := fun d hd => by rw [hbefore d hd]; rfl
  have hstop : ¬ (!separator c) = true := by rw [hc]; exact Bool.false_ne_true
  unfold splitOnce
  rw [List.dropWhile_append_of_pos hnot, List.takeWhile_append_of_pos hnot,
    List.dropWhile_cons, List.takeWhile_cons, if_neg hstop, if_neg hstop, List.append_nil]

theorem splitOnce_eq_none {separator : Char → Bool} {chars : List Char}
    (h : ∀ d ∈ chars, separator d = false) : splitOnce separator chars = none := by
  unfold splitOnce
  rw [List.dropWhile_eq_nil_iff.mpr fun d hd => by rw [h d hd]; rfl]

/-- A digit is no sign. -/
theorem splitSign_of_digits {digits : List Char} (hdigital : ∀ c ∈ digits, c.isDigit = true) :
    splitSign digits = (false, digits) := by
  unfold splitSign
  split
  · exact absurd (hdigital '-' List.mem_cons_self) (by decide)
  · exact absurd (hdigital '+' List.mem_cons_self) (by decide)
  · rfl

theorem parseI32_of_digits {sign digits : List Char} {exponent : Int}
    (hsigned : (sign = [] ∨ sign = ['+']) ∧ exponent = digitsValue digits ∨
      sign = ['-'] ∧ exponent = -digitsValue digits)
    (hnonempty : digits ≠ []) (hdigital : ∀ c ∈ digits, c.isDigit = true)
    (hfits : -2 ^ 31 ≤ exponent ∧ exponent < 2 ^ 31) : parseI32 (sign ++ digits) = some exponent := by
  have hall : digits.all Char.isDigit = true := List.all_eq_true.mpr hdigital
  have hchecked : ¬ (decide (digits = []) || !digits.all Char.isDigit) = true := by
    simp [hnonempty, hall]
  unfold parseI32
  rcases hsigned with ⟨rfl | rfl, rfl⟩ | ⟨rfl, rfl⟩
  · rw [List.nil_append, splitSign_of_digits hdigital]
    dsimp only
    rw [if_neg hchecked, if_neg Bool.false_ne_true, if_pos hfits]
  · rw [List.singleton_append, splitSign]
    dsimp only
    rw [if_neg hchecked, if_neg Bool.false_ne_true, if_pos hfits]
  · rw [List.singleton_append, splitSign]
    dsimp only
    rw [if_neg hchecked, if_pos rfl, if_pos hfits]

/-- A character of the grammar that is neither a digit nor the point starts the exponent. -/
theorem splitExponent_of_written {mantissa suffix : List Char} {exponent : Int}
    (hmantissa : ∀ c ∈ mantissa, c.isDigit = true ∨ c = '.') (h : ExponentText suffix exponent) :
    splitExponent (mantissa ++ suffix) = some (mantissa, exponent) := by
  have hunmarked : ∀ c ∈ mantissa, (decide (c = 'e') || decide (c = 'E')) = false := by
    intro c hc
    simp only [Bool.or_eq_false_iff, decide_eq_false_iff_not]
    constructor
    · rintro rfl
      exact absurd (hmantissa 'e' hc) (by decide)
    · rintro rfl
      exact absurd (hmantissa 'E' hc) (by decide)
  unfold splitExponent
  cases h with
  | absent => rw [List.append_nil, splitOnce_eq_none hunmarked]
  | @written marker sign digits exponent marked signed nonempty digital fits =>
    have hmarker : (decide (marker = 'e') || decide (marker = 'E')) = true := by simpa using marked
    rw [splitOnce_append hunmarked hmarker]
    dsimp only
    rw [parseI32_of_digits signed nonempty digital fits]
    rfl

/-- The point splits the mantissa. -/
theorem splitPoint_of_written {whole point fractional : List Char}
    (hwhole : ∀ c ∈ whole, c.isDigit = true)
    (hpoint : point = [] ∧ fractional = [] ∨ point = '.' :: fractional) :
    (splitOnce (· = '.') (whole ++ point)).getD (whole ++ point, []) = (whole, fractional) := by
  have hunpointed : ∀ c ∈ whole, decide (c = '.') = false := by
    intro c hc
    refine decide_eq_false ?_
    rintro rfl
    exact absurd (hwhole '.' hc) (by decide)
  rcases hpoint with ⟨rfl, rfl⟩ | rfl
  · rw [List.append_nil, splitOnce_eq_none hunpointed]
    rfl
  · rw [splitOnce_append hunpointed (decide_eq_true rfl)]
    rfl

/-- There is at most one point. -/
theorem count_point_of_written {whole point fractional : List Char}
    (hwhole : ∀ c ∈ whole, c.isDigit = true) (hfractional : ∀ c ∈ fractional, c.isDigit = true)
    (hpoint : point = [] ∧ fractional = [] ∨ point = '.' :: fractional) :
    (whole ++ point).count '.' ≤ 1 := by
  have hnone : ∀ {digits : List Char}, (∀ c ∈ digits, c.isDigit = true) → digits.count '.' = 0 := by
    intro digits hdigits
    exact List.count_eq_zero.mpr fun hmem => absurd (hdigits '.' hmem) (by decide)
  rw [List.count_append, hnone hwhole]
  rcases hpoint with ⟨rfl, -⟩ | rfl
  · simp
  · rw [List.count_cons_self, hnone hfractional]

/-- What the parser makes of a written text within its bounds. -/
theorem parse_of_written {text : String} {whole fractional : List Char} {exponent : Int}
    (h : Written text whole fractional exponent)
    (hsignificant : ((whole ++ fractional).dropWhile (· = '0')).length ≤ 38)
    (hfractional : fractional.length ≤ 38) (s : Nat) :
    parseDecimalToScaled text (10 ^ s) =
      if digitsValue (whole ++ fractional) = 0 then .error .invalidAmount
      else shifted (digitsValue (whole ++ fractional)) (exponent + s - fractional.length) := by
  obtain ⟨⟨point, suffix, htext, hpoint, hsuffix⟩, hwholeDigits, hfractionalDigits, hnonempty⟩ := h
  have hdigits : ∀ c ∈ whole ++ fractional, c.isDigit = true := by
    intro c hc
    exact (List.mem_append.mp hc).elim (hwholeDigits c) (hfractionalDigits c)
  have hmantissa : ∀ c ∈ whole ++ point, c.isDigit = true ∨ c = '.' := by
    intro c hc
    rcases List.mem_append.mp hc with hc | hc
    · exact .inl (hwholeDigits c hc)
    · rcases hpoint with ⟨rfl, -⟩ | rfl
      · cases hc
      · rcases List.mem_cons.mp hc with rfl | hc
        · exact .inr rfl
        · exact .inl (hfractionalDigits c hc)
  -- The text is not empty and starts with a digit or the point, not with a sign.
  have hunsigned : ¬ (decide ((whole ++ point) ++ suffix = []) ||
      decide (((whole ++ point) ++ suffix).head? = some '-') ||
      decide (((whole ++ point) ++ suffix).head? = some '+')) = true := by
    cases hmantissaEq : whole ++ point with
    | nil =>
      obtain ⟨rfl, rfl⟩ := List.append_eq_nil_iff.mp hmantissaEq
      rcases hpoint with ⟨-, rfl⟩ | hpoint
      · exact absurd rfl hnonempty
      · cases hpoint
    | cons c rest =>
      rw [hmantissaEq] at hmantissa
      have hc := hmantissa c List.mem_cons_self
      have hminus : c ≠ '-' := by
        rintro rfl
        exact absurd hc (by decide)
      have hplus : c ≠ '+' := by
        rintro rfl
        exact absurd hc (by decide)
      simp [hminus, hplus]
  have hcount := count_point_of_written hwholeDigits hfractionalDigits hpoint
  have hchecked : ¬ ((decide (whole = []) && decide (fractional = [])) || !whole.all Char.isDigit ||
      !fractional.all Char.isDigit) = true := by
    have hsome : ¬ (whole = [] ∧ fractional = []) := fun hnil => hnonempty (by rw [hnil.1, hnil.2]; rfl)
    simp only [Bool.or_eq_true, Bool.and_eq_true, decide_eq_true_eq, Bool.not_eq_true',
      List.all_eq_false]
    rintro ((hnil | ⟨c, hc, hbad⟩) | ⟨c, hc, hbad⟩)
    · exact hsome hnil
    · exact hbad (hwholeDigits c hc)
    · exact hbad (hfractionalDigits c hc)
  unfold parseDecimalToScaled
  dsimp only
  rw [htext, if_neg hunsigned, splitExponent_of_written hmantissa hsuffix]
  dsimp only
  rw [if_neg (Nat.not_lt.mpr hcount), splitPoint_of_written hwholeDigits hpoint]
  dsimp only
  rw [if_neg hchecked]
  by_cases hzero : digitsValue (whole ++ fractional) = 0
  · rw [if_pos ((dropWhile_zeros_eq_nil hdigits).mpr hzero), if_pos hzero]
  · have hbounded : ¬ (decide (38 < ((whole ++ fractional).dropWhile (· = '0')).length) ||
        decide (38 < fractional.length)) = true := by
      simp only [Bool.or_eq_true, decide_eq_true_eq]
      omega
    rw [if_neg (mt (dropWhile_zeros_eq_nil hdigits).mp hzero), if_neg hbounded, if_neg hzero,
      decimalDigits_pow, digitsValue_dropWhile]

/-! ## Exactness -/

/-- On written texts within its bounds the parser gives the rounded price exactly when the point does
not move more than 38 places to the left, or all digits are zero. -/
theorem parse_scaledPrice_iff {text : String} {whole fractional : List Char} {exponent : Int}
    (h : Written text whole fractional exponent)
    (hsignificant : ((whole ++ fractional).dropWhile (· = '0')).length ≤ 38)
    (hfractional : fractional.length ≤ 38) (s : Nat) :
    parseDecimalToScaled text (10 ^ s) = scaledPrice (denoted whole fractional exponent) s ↔
      digitsValue (whole ++ fractional) = 0 ∨ -38 ≤ exponent + s - fractional.length := by
  have hdigits : ∀ c ∈ whole ++ fractional, c.isDigit = true := by
    intro c hc
    exact (List.mem_append.mp hc).elim (h.wholeDigits c) (h.fractionalDigits c)
  have hvalue : denoted whole fractional exponent * 10 ^ s =
      (digitsValue (whole ++ fractional) : ℚ) * 10 ^ (exponent + s - fractional.length) := by
    rw [denoted, mul_assoc, ← zpow_natCast, ← zpow_add₀ (by norm_num)]
    congr 2
    ring
  rw [parse_of_written h hsignificant hfractional, scaledPrice, hvalue]
  have hlt : digitsValue (whole ++ fractional) < 10 ^ 38 := by
    rw [← digitsValue_dropWhile]
    refine lt_of_lt_of_le (digitsValue_lt fun c hc => ?_) (Nat.pow_le_pow_right (by decide) hsignificant)
    exact hdigits c ((List.dropWhile_suffix _).subset hc)
  generalize digitsValue (whole ++ fractional) = digits at hlt ⊢
  generalize exponent + (s : Int) - (fractional.length : Int) = shift
  by_cases hzero : digits = 0
  · rw [if_pos hzero, hzero]
    have hfloor : ⌊((0 : Nat) : ℚ) * 10 ^ shift + 1 / 2⌋₊ = 0 := by norm_num
    rw [hfloor]
    exact ⟨fun _ => .inl rfl, fun _ => rfl⟩
  · rw [if_neg hzero]
    have hpos : 0 < digits := Nat.pos_of_ne_zero hzero
    rcases lt_or_ge shift (-38) with hfar | hnear
    · -- Out of reach the parser answers zero, and the price is nothing.
      have hshifted : shifted digits shift = .ok 0 := by
        unfold shifted
        dsimp only
        rw [if_neg (by omega), if_pos (by omega)]
      rw [hshifted, floor_of_small hlt hfar]
      constructor
      · exact fun heq => by cases heq
      · rintro (h0 | hge) <;> omega
    · refine iff_of_true ?_ (.inr hnear)
      rcases lt_or_ge shift 0 with hneg | hnonneg
      · exact shifted_of_neg hneg hnear
      · exact shifted_of_nonneg hpos hnonneg

/-- `2.5e-6`, a price of 2.5 millionths for each token. -/
theorem written_sample : Written "2.5e-6" ['2'] ['5'] (-6) where
  chars := ⟨['.', '5'], ['e', '-', '6'], by decide +kernel, .inr rfl,
    .written (.inl rfl) (.inr ⟨rfl, rfl⟩) (List.cons_ne_nil _ _) (by simp) (by decide)⟩
  wholeDigits := by simp
  fractionalDigits := by simp
  nonempty := List.cons_ne_nil _ _

theorem parse_scaledPrice_iff_sample :
    parseDecimalToScaled "2.5e-6" (10 ^ 12) = scaledPrice (denoted ['2'] ['5'] (-6)) 12 :=
  (parse_scaledPrice_iff written_sample (by decide) (by decide) 12).mpr (.inr (by decide))

/-- A price too small to be one is taken for a price of nothing. -/
theorem underflow_is_free :
    Written "1e-60" ['1'] [] (-60) ∧ (['1'] ++ [] : List Char).length ≤ 38 ∧
      parseDecimalToScaled "1e-60" (10 ^ 12) = .ok 0 ∧
      scaledPrice (denoted ['1'] [] (-60)) 12 = .error .invalidAmount := by
  have hwritten : Written "1e-60" ['1'] [] (-60) :=
    { chars := ⟨[], ['e', '-', '6', '0'], by decide +kernel, .inl ⟨rfl, rfl⟩,
        .written (.inl rfl) (.inr ⟨rfl, rfl⟩) (List.cons_ne_nil _ _) (by simp) (by decide)⟩
      wholeDigits := by simp
      fractionalDigits := by simp
      nonempty := List.cons_ne_nil _ _ }
  refine ⟨hwritten, by decide, ?_, ?_⟩
  · rw [parse_of_written hwritten (by decide) (by decide)]
    decide
  · have hfloor : ⌊denoted ['1'] [] (-60) * 10 ^ 12 + 1 / 2⌋₊ = 0 := by
      refine Nat.floor_eq_zero.mpr ?_
      have hone : digitsValue ['1'] = 1 := by decide
      rw [denoted, List.append_nil, hone]
      norm_num
    rw [scaledPrice, hfloor]
    rfl

end Zenith.Pricing
