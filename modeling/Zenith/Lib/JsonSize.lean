import Mathlib
import Zenith.Lib.Json

/-!
# The size of JSON values

`nodes` counts the values in a value, `size` the bytes that any text of it takes at least. An object
of `serde_json` is a map in the order of its keys: this is `Ordered`, and `Fields.insert` replaces the
value of a key only in such an object.
-/

namespace Zenith.Json

mutual

/-- The number of values in a value, itself included. -/
def nodes : Json → Nat
  | .array items => 1 + itemNodes items
  | .object fields => 1 + fieldNodes fields
  | _ => 1

def itemNodes : List Json → Nat
  | [] => 0
  | item :: items => item.nodes + itemNodes items

def fieldNodes : List (String × Json) → Nat
  | [] => 0
  | (_, value) :: fields => value.nodes + fieldNodes fields

end

mutual

/-- One byte for each value, and the bytes of its texts. -/
def size : Json → Nat
  | .string s => 1 + (Bytes.utf8 s).length
  | .array items => 1 + itemSizes items
  | .object fields => 1 + fieldSizes fields
  | _ => 1

def itemSizes : List Json → Nat
  | [] => 0
  | item :: items => item.size + itemSizes items

def fieldSizes : List (String × Json) → Nat
  | [] => 0
  | (key, value) :: fields => (Bytes.utf8 key).length + value.size + fieldSizes fields

end

/-- All objects in a value have each key once, in order. -/
inductive Ordered : Json → Prop
  | null : Ordered .null
  | bool (b : Bool) : Ordered (.bool b)
  | number (n : Number) : Ordered (.number n)
  | string (s : String) : Ordered (.string s)
  | array {items : List Json} : (∀ item ∈ items, Ordered item) → Ordered (.array items)
  | object {fields : List (String × Json)} : fields.Pairwise (fun entry entry' => entry.1 < entry'.1) →
      (∀ entry ∈ fields, Ordered entry.2) → Ordered (.object fields)

/-- What a parser and a printer do for the sizes of values: the values that are read are ordered, each
node takes a byte to read, and each node and each byte of a text take one to print. -/
structure Serde.Sized (serde : Serde) : Prop where
  ordered : ∀ bytes value, serde.fromSlice bytes = some value → value.Ordered
  nodes_le : ∀ bytes value, serde.fromSlice bytes = some value → value.nodes ≤ bytes.length
  size_le : ∀ value, value.size ≤ (Bytes.utf8 (serde.toString value)).length

/-! ## Nodes and sizes -/

theorem one_le_nodes (value : Json) : 1 ≤ value.nodes := by
  cases value <;> simp [nodes]

mutual

theorem nodes_le_size : ∀ value : Json, value.nodes ≤ value.size
  | .null | .bool _ | .number _ => le_rfl
  | .string _ => Nat.le_add_right 1 _
  | .array items => Nat.add_le_add_left (itemNodes_le_itemSizes items) 1
  | .object fields => Nat.add_le_add_left (fieldNodes_le_fieldSizes fields) 1

theorem itemNodes_le_itemSizes : ∀ items : List Json, itemNodes items ≤ itemSizes items
  | [] => le_rfl
  | item :: items => Nat.add_le_add (nodes_le_size item) (itemNodes_le_itemSizes items)

theorem fieldNodes_le_fieldSizes : ∀ fields : List (String × Json), fieldNodes fields ≤ fieldSizes fields
  | [] => le_rfl
  | (_, value) :: fields => Nat.add_le_add
    (Nat.le_add_left_of_le (nodes_le_size value)) (fieldNodes_le_fieldSizes fields)

end

theorem itemNodes_append (items items' : List Json) :
    itemNodes (items ++ items') = itemNodes items + itemNodes items' := by
  induction items with
  | nil => exact (Nat.zero_add _).symm
  | cons item items ih => rw [List.cons_append, itemNodes, itemNodes, ih, Nat.add_assoc]

theorem itemNodes_replicate_null (n : Nat) : itemNodes (List.replicate n .null) = n := by
  induction n with
  | zero => rfl
  | succ n ih =>
    have hnull : nodes .null = 1 := rfl
    rw [List.replicate_succ, itemNodes, ih, hnull, Nat.add_comm]

/-- An item is replaced. -/
theorem itemNodes_set {items : List Json} {index : Nat} {old : Json} (hold : items[index]? = some old)
    (item : Json) : itemNodes (items.set index item) + old.nodes = itemNodes items + item.nodes := by
  induction items generalizing index with
  | nil => exact nomatch hold
  | cons head items ih =>
    cases index with
    | zero =>
      obtain rfl := Option.some.inj hold
      simp only [List.set_cons_zero, itemNodes]
      omega
    | succ index =>
      have htail := ih hold
      simp only [List.set_cons_succ, itemNodes]
      omega

/-- Two fields of an object do not share their bytes. -/
theorem size_add_size_le {fields : List (String × Json)} {key key' : String} {value value' : Json}
    (hne : key ≠ key') (hvalue : Fields.get fields key = some value)
    (hvalue' : Fields.get fields key' = some value') : value.size + value'.size ≤ fieldSizes fields := by
  have single : ∀ {fields : List (String × Json)} {key : String} {value : Json},
      Fields.get fields key = some value → value.size ≤ fieldSizes fields := by
    intro fields key value h
    induction fields with
    | nil => exact nomatch h
    | cons entry fields ih =>
      rw [Fields.get_cons] at h
      rw [fieldSizes]
      split at h
      case isTrue =>
        obtain rfl := Option.some.inj h
        omega
      case isFalse => exact Nat.le_add_left_of_le (ih h)
  induction fields with
  | nil => exact nomatch hvalue
  | cons entry fields ih =>
    obtain ⟨k, v⟩ := entry
    rw [Fields.get_cons] at hvalue hvalue'
    rw [fieldSizes]
    by_cases hkey : key = k
    · have hother : ¬ key' = k := fun h => hne (hkey.trans h.symm)
      rw [if_pos hkey] at hvalue
      rw [if_neg hother] at hvalue'
      obtain rfl := Option.some.inj hvalue
      have := single hvalue'
      omega
    · rw [if_neg hkey] at hvalue
      by_cases hkey' : key' = k
      · rw [if_pos hkey'] at hvalue'
        obtain rfl := Option.some.inj hvalue'
        have := single hvalue
        omega
      · rw [if_neg hkey'] at hvalue'
        have := ih hvalue hvalue'
        omega

/-! ## Ordered objects -/

section
variable {fields : List (String × Json)} {key : String}

variable {value : Json}

theorem mem_of_get (h : Fields.get fields key = some value) :
    (key, value) ∈ fields := by
  induction fields with
  | nil => exact nomatch h
  | cons entry fields ih =>
    rw [Fields.get_cons] at h
    split at h
    case isTrue heq =>
      obtain rfl := Option.some.inj h
      exact heq ▸ List.mem_cons_self
    case isFalse => exact List.mem_cons_of_mem _ (ih h)

/-- The nodes of the value of a key. -/
def nodesAt (fields : List (String × Json)) (key : String) : Nat :=
  ((Fields.get fields key).map nodes).getD 0

/-- A new value takes the place of the old one. -/
theorem fieldNodes_insert (h : fields.Pairwise fun entry entry' => entry.1 < entry'.1) (value : Json) :
    fieldNodes (Fields.insert fields key value) + nodesAt fields key =
      fieldNodes fields + value.nodes := by
  induction fields with
  | nil => simp [Fields.insert, fieldNodes, nodesAt]
  | cons entry fields ih =>
    obtain ⟨k, v⟩ := entry
    obtain ⟨hhead, htail⟩ := List.pairwise_cons.mp h
    have hrest := ih htail
    rw [Fields.insert, nodesAt, Fields.get_cons]
    split
    case isTrue =>
      simp only [fieldNodes, Option.map_some, Option.getD_some]
      omega
    case isFalse hne =>
      split
      case isTrue hlt =>
        -- The key is not further on either.
        have hnone : Fields.get fields key = none := by
          by_contra hsome
          obtain ⟨other, hother⟩ := Option.ne_none_iff_exists'.mp hsome
          exact absurd (hlt.trans (hhead _ (mem_of_get hother))) (lt_irrefl _)
        simp only [hnone, fieldNodes, Option.map_none, Option.getD_none]
        omega
      case isFalse =>
        rw [nodesAt] at hrest
        simp only [fieldNodes]
        omega

theorem mem_insert {entry : String × Json}
    (h : entry ∈ Fields.insert fields key value) : entry = (key, value) ∨ entry ∈ fields := by
  induction fields with
  | nil => exact .inl (List.mem_singleton.mp h)
  | cons head fields ih =>
    rw [Fields.insert] at h
    split at h
    case isTrue =>
      rcases List.mem_cons.mp h with h | h
      · exact .inl h
      · exact .inr (List.mem_cons_of_mem _ h)
    case isFalse =>
      split at h
      case isTrue => exact List.mem_cons.mp h
      case isFalse =>
        rcases List.mem_cons.mp h with h | h
        · exact .inr (h ▸ List.mem_cons_self)
        · exact (ih h).imp_right (List.mem_cons_of_mem _)

theorem pairwise_insert (h : fields.Pairwise fun entry entry' => entry.1 < entry'.1) (value : Json) :
    (Fields.insert fields key value).Pairwise fun entry entry' => entry.1 < entry'.1 := by
  induction fields with
  | nil => exact List.pairwise_singleton _ _
  | cons head fields ih =>
    obtain ⟨hhead, htail⟩ := List.pairwise_cons.mp h
    rw [Fields.insert]
    split
    case isTrue heq => exact List.pairwise_cons.mpr ⟨fun entry hentry => heq ▸ hhead entry hentry, htail⟩
    case isFalse hne =>
      split
      case isTrue hlt =>
        refine List.pairwise_cons.mpr ⟨fun entry hentry => ?_, h⟩
        rcases List.mem_cons.mp hentry with rfl | hentry
        · exact hlt
        · exact hlt.trans (hhead entry hentry)
      case isFalse hnot =>
        refine List.pairwise_cons.mpr ⟨fun entry hentry => ?_, ih htail⟩
        rcases mem_insert hentry with rfl | hentry
        · exact lt_of_le_of_ne (not_lt.mp hnot) (Ne.symm hne)
        · exact hhead entry hentry

theorem Ordered.get (h : (Json.object fields).Ordered)
    (hvalue : Fields.get fields key = some value) : value.Ordered := by
  cases h with
  | object _ hvalues => exact hvalues _ (mem_of_get hvalue)

theorem Ordered.insert (h : (Json.object fields).Ordered) (hvalue : value.Ordered) :
    (Json.object (Fields.insert fields key value)).Ordered := by
  cases h with
  | object hkeys hvalues =>
    refine .object (pairwise_insert hkeys value) fun entry hentry => ?_
    rcases mem_insert hentry with rfl | hentry
    · exact hvalue
    · exact hvalues entry hentry

end

end Zenith.Json
