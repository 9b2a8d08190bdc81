import Mathlib
import Zenith.Lib.Bytes
import Zenith.Lib.Encoding

/-!
# JSON values

The values of `serde_json`, with its accessors. An object is a map from strings that keeps its
entries in the order of their keys: `insert` keeps the order, and `ofFields` builds an object from
a literal the way `json!` does. Values that come from elsewhere need not be in order; nothing
here depends on it.

Parsing and printing are not defined here: they are a `Serde`, which developments take as a
parameter.
-/

namespace Zenith.Json

inductive Number
  | nat (n : Nat)
  /-- The number `-n - 1`. -/
  | negSucc (n : Nat)
  | float (text : String)
deriving DecidableEq, Repr

end Zenith.Json

namespace Zenith

inductive Json
  | null
  | bool (b : Bool)
  | number (n : Json.Number)
  | string (s : String)
  | array (items : List Json)
  | object (fields : List (String × Json))
deriving Inhabited

namespace Json

/-- The entries of an object. -/
abbrev Fields := List (String × Json)

namespace Fields

/-- `Map::insert`: sets the value of a key. -/
def insert : Fields → String → Json → Fields
  | [], key, value => [(key, value)]
  | (k, v) :: fields, key, value =>
    if key = k then (key, value) :: fields
    else if key < k then (key, value) :: (k, v) :: fields
    else (k, v) :: insert fields key value

/-- `Map::remove`. -/
def remove (fields : Fields) (key : String) : Fields := fields.filter fun entry => entry.1 ≠ key

def get (fields : Fields) (key : String) : Option Json := fields.lookup key

@[simp] theorem get_nil (key : String) : get [] key = none := rfl

theorem get_cons (k : String) (v : Json) (fields : Fields) (key : String) :
    get ((k, v) :: fields) key = if key = k then some v else get fields key := by
  rw [get, List.lookup_cons]
  by_cases h : key = k
  · rw [if_pos h, h, beq_self_eq_true]
  · rw [if_neg h, beq_false_of_ne h]
    rfl

theorem get_insert (fields : Fields) (k : String) (v : Json) (key : String) :
    (fields.insert k v).get key = if key = k then some v else fields.get key := by
  induction fields with
  | nil => exact get_cons k v [] key
  | cons entry fields ih =>
    obtain ⟨k', v'⟩ := entry
    rw [insert]
    split
    case isTrue heq =>
      subst heq
      rw [get_cons, get_cons]
      split <;> rfl
    case isFalse hne =>
      split
      case isTrue => rw [get_cons]
      case isFalse =>
        rw [get_cons, get_cons, ih]
        by_cases hkey : key = k
        · rw [if_pos hkey, if_pos hkey, if_neg (by rw [hkey]; exact hne)]
        · rw [if_neg hkey, if_neg hkey]

theorem get_remove (fields : Fields) (k key : String) :
    (fields.remove k).get key = if key = k then none else fields.get key := by
  induction fields with
  | nil => simp [remove, get]
  | cons entry fields ih =>
    obtain ⟨k', v⟩ := entry
    rw [remove] at ih ⊢
    by_cases hk : k' = k
    · rw [List.filter_cons_of_neg (by simpa using hk), ih, get_cons]
      by_cases hkey : key = k
      · rw [if_pos hkey, if_pos hkey]
      · rw [if_neg hkey, if_neg hkey, if_neg (by rw [hk]; exact hkey)]
    · rw [List.filter_cons_of_pos (by simpa using hk), get_cons, ih, get_cons]
      by_cases hkey : key = k
      · rw [if_pos hkey, if_pos hkey, if_neg (by rw [hkey]; exact Ne.symm hk)]
      · rw [if_neg hkey, if_neg hkey]

end Fields

/-- `json!` with an object literal. -/
def ofFields (fields : Fields) : Json :=
  .object (fields.foldl (fun object entry => Fields.insert object entry.1 entry.2) [])

/-- `Value::get` with a key. -/
def get (value : Json) (key : String) : Option Json :=
  match value with
  | .object fields => Fields.get fields key
  | _ => none

theorem get_foldl_insert (entries object : Fields) (key : String) :
    Fields.get (entries.foldl (fun object entry => Fields.insert object entry.1 entry.2) object) key =
      (Fields.get entries.reverse key).or (object.get key) := by
  induction entries using List.reverseRecOn with
  | nil => rfl
  | append_singleton entries entry ih =>
    rw [List.foldl_concat, Fields.get_insert, List.reverse_concat, Fields.get_cons, ih]
    split <;> rfl

/-- In a literal the last value of a key counts. -/
@[simp] theorem get_ofFields (fields : Fields) (key : String) :
    (ofFields fields).get key = Fields.get fields.reverse key := by
  rw [ofFields, get, get_foldl_insert, Fields.get_nil, Option.or_none]

def asStr : Json → Option String
  | .string s => some s
  | _ => none

/-- `Value::as_u64`. -/
def asU64 : Json → Option Nat
  | .number (.nat n) => if n < 2 ^ 64 then some n else none
  | _ => none

def asBool : Json → Option Bool
  | .bool b => some b
  | _ => none

def asArray : Json → Option (List Json)
  | .array items => some items
  | _ => none

def asObject : Json → Option Fields
  | .object fields => some fields
  | _ => none

theorem get_of_asObject {value : Json} {fields : Fields} (h : value.asObject = some fields)
    (key : String) : value.get key = Fields.get fields key := by
  cases value with
  | object _ =>
    obtain rfl := Option.some.inj h
    rfl
  | _ => exact nomatch h

def isObject (value : Json) : Bool := value.asObject.isSome

def isNull : Json → Bool
  | .null => true
  | _ => false

/-- `json!` with a number. -/
def ofNat (n : Nat) : Json := .number (.nat n)

/-- `json!` with an optional string: `null` when there is none. -/
def ofOption : Option String → Json
  | some s => .string s
  | none => .null

/-- Induction over the values in a value. -/
@[elab_as_elim]
theorem inductionOn {motive : Json → Prop} (value : Json)
    (leaf : ∀ value : Json, value.asArray = none → value.asObject = none → motive value)
    (array : ∀ items : List Json, (∀ item ∈ items, motive item) → motive (.array items))
    (object : ∀ fields : List (String × Json), (∀ entry ∈ fields, motive entry.2) → motive (.object fields)) :
    motive value :=
  match value with
  | .null => leaf .null rfl rfl
  | .bool b => leaf (.bool b) rfl rfl
  | .number n => leaf (.number n) rfl rfl
  | .string s => leaf (.string s) rfl rfl
  | .array items => array items fun item _ => inductionOn item leaf array object
  | .object fields => object fields fun entry _ => inductionOn entry.2 leaf array object
termination_by sizeOf value
decreasing_by
  · have hmem := List.sizeOf_lt_of_mem ‹item ∈ items›
    simp only [Json.array.sizeOf_spec]
    omega
  · have hmem := List.sizeOf_lt_of_mem ‹entry ∈ fields›
    cases entry
    simp_all only [Json.object.sizeOf_spec, Prod.mk.sizeOf_spec]
    omega

theorem asU64_lt {value : Json} {n : Nat} (h : value.asU64 = some n) : n < 2 ^ 64 := by
  unfold asU64 at h
  split at h
  case h_1 m =>
    split at h
    case isTrue hlt =>
      cases h
      exact hlt
    case isFalse => exact nomatch h
  case h_2 => exact nomatch h

theorem asU64_ofNat {n : Nat} (h : n < 2 ^ 64) : (ofNat n).asU64 = some n := if_pos h

@[simp] theorem asStr_string (s : String) : (Json.string s).asStr = some s := rfl

/-- A string in quotes. Only quotes and backslashes are escaped here. -/
def quote (s : String) : String :=
  "\"" ++ String.ofList (s.toList.flatMap fun c =>
    if c = '"' ∨ c = '\\' then ['\\', c] else [c]) ++ "\""

def Number.print : Number → String
  | .nat n => toString n
  | .negSucc n => "-" ++ toString (n + 1)
  | .float text => text

mutual

/-- The compact text of a value. -/
def print : Json → String
  | .null => "null"
  | .bool b => if b then "true" else "false"
  | .number n => n.print
  | .string s => quote s
  | .array items => "[" ++ String.intercalate "," (printItems items) ++ "]"
  | .object fields => "\x7b" ++ String.intercalate "," (printFields fields) ++ "\x7d"

def printItems : List Json → List String
  | [] => []
  | item :: items => item.print :: printItems items

def printFields : List (String × Json) → List String
  | [] => []
  | (key, value) :: fields => (quote key ++ ":" ++ value.print) :: printFields fields

end

/-! The characters of a printed value, without the strings in between: this is what examples are
evaluated with. -/

def quoteChars (s : String) : List Char :=
  '"' :: (s.toList.flatMap fun c => if c = '"' ∨ c = '\\' then ['\\', c] else [c]) ++ ['"']

mutual

def printChars : Json → List Char
  | .null => "null".toList
  | .bool b => if b then "true".toList else "false".toList
  | .number n => n.print.toList
  | .string s => quoteChars s
  | .array items => '[' :: List.intercalate [','] (printItemChars items) ++ [']']
  | .object fields => '\x7b' :: List.intercalate [','] (printFieldChars fields) ++ ['\x7d']

def printItemChars : List Json → List (List Char)
  | [] => []
  | item :: items => item.printChars :: printItemChars items

def printFieldChars : List (String × Json) → List (List Char)
  | [] => []
  | (key, value) :: fields => (quoteChars key ++ ':' :: value.printChars) :: printFieldChars fields

end

theorem toList_quote (s : String) : (quote s).toList = quoteChars s := by
  simp [quote, quoteChars]

mutual

theorem toList_print : ∀ value : Json, value.print.toList = value.printChars
  | .null => rfl
  | .bool b => by cases b <;> rfl
  | .number _ => rfl
  | .string s => toList_quote s
  | .array items => by
    rw [print, printChars, ← map_toList_printItems items]
    simp [String.toList_intercalate]
  | .object fields => by
    rw [print, printChars, ← map_toList_printFields fields]
    simp [String.toList_intercalate]

theorem map_toList_printItems : ∀ items : List Json,
    (printItems items).map String.toList = printItemChars items
  | [] => rfl
  | item :: items => by
    rw [printItems, printItemChars, List.map_cons, toList_print item, map_toList_printItems items]

theorem map_toList_printFields : ∀ fields : List (String × Json),
    (printFields fields).map String.toList = printFieldChars fields
  | [] => rfl
  | (key, value) :: fields => by
    rw [printFields, printFieldChars, List.map_cons, map_toList_printFields fields,
      ← toList_print value, ← toList_quote]
    simp

end

/-- The bytes of a printed value. -/
def printBytes (value : Json) : List UInt8 := value.printChars.flatMap String.utf8EncodeChar

theorem utf8_print (value : Json) : Bytes.utf8 value.print = value.printBytes := by
  rw [Bytes.utf8, toList_print, printBytes]

/-! ## Equality -/

mutual

def beq : Json → Json → Bool
  | .null, .null => true
  | .bool a, .bool b => a == b
  | .number a, .number b => decide (a = b)
  | .string a, .string b => decide (a = b)
  | .array a, .array b => beqItems a b
  | .object a, .object b => beqFields a b
  | _, _ => false

def beqItems : List Json → List Json → Bool
  | [], [] => true
  | a :: as, b :: bs => beq a b && beqItems as bs
  | _, _ => false

def beqFields : List (String × Json) → List (String × Json) → Bool
  | [], [] => true
  | (k, a) :: as, (l, b) :: bs => decide (k = l) && beq a b && beqFields as bs
  | _, _ => false

end

mutual

theorem beq_iff : ∀ a b : Json, beq a b = true ↔ a = b
  | .null, b => by cases b <;> simp [beq]
  | .bool a, b => by cases b <;> simp [beq]
  | .number a, b => by cases b <;> simp [beq]
  | .string a, b => by cases b <;> simp [beq]
  | .array a, b => by cases b <;> simp [beq, beqItems_iff a]
  | .object a, b => by cases b <;> simp [beq, beqFields_iff a]

theorem beqItems_iff : ∀ as bs : List Json, beqItems as bs = true ↔ as = bs
  | [], bs => by cases bs <;> simp [beqItems]
  | a :: as, bs => by
    cases bs with
    | nil => simp [beqItems]
    | cons b bs => simp [beqItems, beq_iff a b, beqItems_iff as bs]

theorem beqFields_iff : ∀ as bs : List (String × Json), beqFields as bs = true ↔ as = bs
  | [], bs => by cases bs <;> simp [beqFields]
  | (k, a) :: as, bs => by
    cases bs with
    | nil => simp [beqFields]
    | cons b bs =>
      obtain ⟨l, b⟩ := b
      simp [beqFields, beq_iff a b, beqFields_iff as bs]

end

instance : DecidableEq Json := fun a b => decidable_of_iff (beq a b = true) (beq_iff a b)

/-! ## The library -/

/-- Parsing and printing, as `serde_json` does them. Printing a value never fails. -/
structure Serde where
  fromSlice : List UInt8 → Option Json
  toString : Json → String

namespace Serde

def fromStr (serde : Serde) (text : String) : Option Json := serde.fromSlice (Bytes.utf8 text)

/-- A `Serde` for examples: it reads the given texts, and takes every other text for invalid. -/
def ofTexts (texts : List (String × Json)) : Serde where
  fromSlice bytes := (texts.find? fun entry => Bytes.utf8 entry.1 = bytes).map Prod.snd
  toString := print

theorem fromStr_ofTexts (texts : List (String × Json)) (text : String) :
    (ofTexts texts).fromStr text = (texts.find? fun entry => entry.1 = text).map Prod.snd := by
  have hsame : ∀ entry : String × Json, decide (Bytes.utf8 entry.1 = Bytes.utf8 text) = decide (entry.1 = text) :=
    fun entry => decide_eq_decide.mpr ⟨Bytes.utf8_injective, congrArg Bytes.utf8⟩
  show (texts.find? fun entry => decide (Bytes.utf8 entry.1 = Bytes.utf8 text)).map Prod.snd = _
  simp only [hsame]

/-- A `Serde` for examples: it reads the given values as they are printed. -/
def ofValues (values : List Json) : Serde where
  fromSlice bytes := values.find? fun value => value.printBytes = bytes
  toString := print

end Serde

end Json

end Zenith
