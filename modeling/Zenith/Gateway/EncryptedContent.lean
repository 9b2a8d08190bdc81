import Mathlib
import Zenith.Gateway.Attempts

/-!
# Encrypted content

What `tryRecoverEncryptedContent` removes of a request: the encrypted compactions among the items of its arrays, and
the encrypted content of its reasoning objects, with their ids (`Stripped`). It recovers exactly the requests that have
any (`Encrypted`), and what it returns has none (`encrypted_content_recovered`).
-/

namespace Zenith.Gateway

open Zenith.Text

/-! ## Encrypted values -/

/-- `item` is an item of an array in the value, at any depth. -/
inductive ItemOf (item : Json) : Json → Prop
  | here {items : List Json} : item ∈ items → ItemOf item (.array items)
  | inItem {items : List Json} {value : Json} : value ∈ items → ItemOf item value → ItemOf item (.array items)
  | inField {fields : Json.Fields} {entry : String × Json} : entry ∈ fields → ItemOf item entry.2 →
      ItemOf item (.object fields)

/-- An object in the value that is in no encrypted compaction item. -/
inductive ObjectOf (object : Json.Fields) : Json → Prop
  | here : ObjectOf object (.object object)
  | inItem {items : List Json} {value : Json} : value ∈ items → isEncryptedCompaction value = false →
      ObjectOf object value → ObjectOf object (.array items)
  | inField {fields : Json.Fields} {entry : String × Json} : entry ∈ fields → ObjectOf object entry.2 →
      ObjectOf object (.object fields)

def Encrypted (value : Json) : Prop :=
  (∃ item, ItemOf item value ∧ isEncryptedCompaction item = true) ∨
    ∃ object, ObjectOf object value ∧ isEncryptedReasoning object = true

/-- The second value is the first without its encrypted content: arrays lose the encrypted compactions, reasoning
objects with encrypted content lose it and their id, and the rest stays, in its order. -/
inductive Stripped : Json → Json → Prop
  | leaf {value : Json} : value.asArray = none → value.asObject = none → Stripped value value
  | array {items kept : List Json} :
      List.Forall₂ Stripped (items.filter fun item => !isEncryptedCompaction item) kept →
      Stripped (.array items) (.array kept)
  | object {fields left kept : Json.Fields} :
      left = fields.filter (fun entry => !(isEncryptedReasoning fields && entry.1 ∈ ["encrypted_content", "id"])) →
      kept.map (·.1) = left.map (·.1) → List.Forall₂ Stripped (left.map (·.2)) (kept.map (·.2)) →
      Stripped (.object fields) (.object kept)

/-! ## Stripping -/

theorem stripItems_fst (items : List Json) :
    (stripItems items).1 =
      (items.filter fun item => !isEncryptedCompaction item).map fun item => (stripEncryptedReasoning item).1 := by
  induction items with
  | nil => rfl
  | cons item items ih =>
    rw [stripItems]
    cases hitem : isEncryptedCompaction item with
    | true =>
      rw [List.filter_cons_of_neg (by rw [hitem]; decide)]
      exact ih
    | false =>
      rw [List.filter_cons_of_pos (by rw [hitem]; decide), List.map_cons, ← ih]
      rfl

theorem stripFields_fst (fields : Json.Fields) :
    (stripFields fields).1 = fields.map fun entry => (entry.1, (stripEncryptedReasoning entry.2).1) := by
  induction fields with
  | nil => rfl
  | cons entry fields ih =>
    rw [stripFields, List.map_cons, ← ih]

theorem asStr_strip (value : Json) : (stripEncryptedReasoning value).1.asStr = value.asStr := by
  cases value <;> simp only [stripEncryptedReasoning] <;> rfl

/-- Stripping keeps the strings of an object. -/
theorem get_stripFields (fields : Json.Fields) (key : String) :
    (Json.Fields.get (stripFields fields).1 key).bind Json.asStr = (fields.get key).bind Json.asStr := by
  rw [stripFields_fst]
  induction fields with
  | nil => rfl
  | cons entry fields ih =>
    rw [List.map_cons, Json.Fields.get_cons, ← Prod.mk.eta (p := entry), Json.Fields.get_cons]
    split
    · exact asStr_strip entry.2
    · exact ih

theorem isEncryptedReasoning_strip (fields : Json.Fields) :
    isEncryptedReasoning (stripFields fields).1 = isEncryptedReasoning fields := by
  unfold isEncryptedReasoning hasEncryptedContent
  rw [get_stripFields, get_stripFields]

theorem stripEncryptedReasoning_object (fields : Json.Fields) :
    (stripEncryptedReasoning (.object fields)).1 = .object (withoutEncryptedContent (stripFields fields).1) := by
  rw [stripEncryptedReasoning]

theorem withoutEncryptedContent_eq (fields : Json.Fields) :
    withoutEncryptedContent fields =
      fields.filter fun entry => !(isEncryptedReasoning fields && entry.1 ∈ ["encrypted_content", "id"]) := by
  unfold withoutEncryptedContent
  cases isEncryptedReasoning fields with
  | false => exact (List.filter_eq_self.mpr fun _ _ => rfl).symm
  | true =>
    rw [if_pos rfl, Json.Fields.remove, Json.Fields.remove, List.filter_filter]
    refine List.filter_congr fun entry _ => ?_
    rw [Bool.true_and]
    by_cases hid : entry.1 = "id"
    · simp [hid]
    · by_cases hcontent : entry.1 = "encrypted_content"
      · simp [hcontent]
      · simp [hid, hcontent]

theorem stripped_strip (value : Json) : Stripped value (stripEncryptedReasoning value).1 := by
  induction value using Json.inductionOn with
  | leaf value harray hobject =>
    have hsame : (stripEncryptedReasoning value).1 = value := by
      cases value with
      | array items => exact nomatch harray
      | object fields => exact nomatch hobject
      | _ => simp only [stripEncryptedReasoning]
    rw [hsame]
    exact .leaf harray hobject
  | array items ih =>
    have harray : (stripEncryptedReasoning (.array items)).1 = .array (stripItems items).1 := by
      rw [stripEncryptedReasoning]
    rw [harray, stripItems_fst]
    refine .array (List.forall₂_map_right_iff.mpr (List.forall₂_same.mpr fun item hitem => ?_))
    exact ih item (List.mem_filter.mp hitem).1
  | object fields ih =>
    rw [stripEncryptedReasoning_object, withoutEncryptedContent_eq, isEncryptedReasoning_strip, stripFields_fst,
      List.filter_map]
    refine .object rfl ?_ ?_
    · rw [List.map_map]
      rfl
    · rw [List.map_map, List.forall₂_map_left_iff, List.forall₂_map_right_iff]
      exact List.forall₂_same.mpr fun entry hentry => ih entry (List.mem_filter.mp hentry).1

/-! ## Changes -/

theorem encrypted_array {items : List Json} :
    Encrypted (.array items) ↔ ∃ item ∈ items, isEncryptedCompaction item = true ∨ Encrypted item := by
  constructor
  · rintro (⟨item, hitem, hcompaction⟩ | ⟨object, hobject, hreasoning⟩)
    · cases hitem with
      | here hmem => exact ⟨item, hmem, .inl hcompaction⟩
      | inItem hmem hinside => exact ⟨_, hmem, .inr (.inl ⟨item, hinside, hcompaction⟩)⟩
    · cases hobject with
      | inItem hmem _ hinside => exact ⟨_, hmem, .inr (.inr ⟨object, hinside, hreasoning⟩)⟩
  · rintro ⟨value, hmem, hcompaction | ⟨item, hitem, hcompaction⟩ | ⟨object, hobject, hreasoning⟩⟩
    · exact .inl ⟨value, .here hmem, hcompaction⟩
    · exact .inl ⟨item, .inItem hmem hitem, hcompaction⟩
    · cases hvalue : isEncryptedCompaction value with
      | true => exact .inl ⟨value, .here hmem, hvalue⟩
      | false => exact .inr ⟨object, .inItem hmem hvalue hobject, hreasoning⟩

theorem encrypted_object {fields : Json.Fields} :
    Encrypted (.object fields) ↔ isEncryptedReasoning fields = true ∨ ∃ entry ∈ fields, Encrypted entry.2 := by
  constructor
  · rintro (⟨item, hitem, hcompaction⟩ | ⟨object, hobject, hreasoning⟩)
    · cases hitem with
      | inField hmem hinside => exact .inr ⟨_, hmem, .inl ⟨item, hinside, hcompaction⟩⟩
    · cases hobject with
      | here => exact .inl hreasoning
      | inField hmem hinside => exact .inr ⟨_, hmem, .inr ⟨object, hinside, hreasoning⟩⟩
  · rintro (hreasoning | ⟨entry, hmem, ⟨item, hitem, hcompaction⟩ | ⟨object, hobject, hreasoning⟩⟩)
    · exact .inr ⟨fields, .here, hreasoning⟩
    · exact .inl ⟨item, .inField hmem hitem, hcompaction⟩
    · exact .inr ⟨object, .inField hmem hobject, hreasoning⟩

theorem not_encrypted_leaf {value : Json} (harray : value.asArray = none) (hobject : value.asObject = none) :
    ¬Encrypted value := by
  rintro (⟨item, hitem, -⟩ | ⟨object, hinside, -⟩)
  · cases hitem with
    | here => exact nomatch harray
    | inItem => exact nomatch harray
    | inField => exact nomatch hobject
  · cases hinside with
    | here => exact nomatch hobject
    | inItem => exact nomatch harray
    | inField => exact nomatch hobject

theorem stripItems_snd (items : List Json) :
    (stripItems items).2 = items.any fun item => isEncryptedCompaction item || (stripEncryptedReasoning item).2 := by
  induction items with
  | nil => rfl
  | cons item items ih =>
    rw [stripItems, List.any_cons, ← ih]
    cases isEncryptedCompaction item <;> rfl

theorem stripFields_snd (fields : Json.Fields) :
    (stripFields fields).2 = fields.any fun entry => (stripEncryptedReasoning entry.2).2 := by
  induction fields with
  | nil => rfl
  | cons entry fields ih => rw [stripFields, List.any_cons, ← ih]

/-- A request is changed when it has encrypted content. -/
theorem changed_iff (value : Json) : (stripEncryptedReasoning value).2 = true ↔ Encrypted value := by
  induction value using Json.inductionOn with
  | leaf value harray hobject =>
    refine iff_of_false ?_ (not_encrypted_leaf harray hobject)
    cases value with
    | array items => exact nomatch harray
    | object fields => exact nomatch hobject
    | _ => simp only [stripEncryptedReasoning, Bool.false_eq_true, not_false_eq_true]
  | array items ih =>
    have hflag : (stripEncryptedReasoning (.array items)).2 = (stripItems items).2 := by rw [stripEncryptedReasoning]
    rw [hflag, stripItems_snd, encrypted_array, List.any_eq_true]
    exact exists_congr fun item => and_congr_right fun hitem => Bool.or_eq_true_iff.trans (or_congr_right (ih item hitem))
  | object fields ih =>
    have hflag : (stripEncryptedReasoning (.object fields)).2 = (isEncryptedReasoning fields || (stripFields fields).2) := by
      rw [stripEncryptedReasoning]
    rw [hflag, stripFields_snd, encrypted_object, Bool.or_eq_true, List.any_eq_true]
    exact or_congr_right (exists_congr fun entry => and_congr_right fun hentry => ih entry hentry)

/-! ## What is left -/

theorem isEncryptedReasoning_without (fields : Json.Fields) :
    isEncryptedReasoning (withoutEncryptedContent fields) = false := by
  unfold withoutEncryptedContent
  split
  case isTrue =>
    have hget : ((fields.remove "encrypted_content").remove "id").get "encrypted_content" = none := by
      rw [Json.Fields.get_remove, if_neg (by decide), Json.Fields.get_remove, if_pos rfl]
    unfold isEncryptedReasoning hasEncryptedContent
    rw [hget]
    exact Bool.and_false _
  case isFalse h => exact Bool.eq_false_of_not_eq_true h

/-- No item becomes an encrypted compaction. -/
theorem isEncryptedCompaction_strip {value : Json} (h : isEncryptedCompaction value = false) :
    isEncryptedCompaction (stripEncryptedReasoning value).1 = false := by
  cases value with
  | object fields =>
    rw [stripEncryptedReasoning_object]
    unfold withoutEncryptedContent
    rw [isEncryptedReasoning_strip]
    split
    case isTrue hreasoning =>
      have hget : ((Json.Fields.remove (stripFields fields).1 "encrypted_content").remove "id").get "encrypted_content" =
          none := by
        rw [Json.Fields.get_remove, if_neg (by decide), Json.Fields.get_remove, if_pos rfl]
      unfold isEncryptedCompaction Json.asObject hasEncryptedContent
      rw [Option.any_some, hget]
      exact Bool.and_false _
    case isFalse =>
      unfold isEncryptedCompaction Json.asObject hasEncryptedContent at h ⊢
      rw [Option.any_some] at h ⊢
      rw [get_stripFields, get_stripFields]
      exact h
  | array items =>
    rw [stripEncryptedReasoning]
    rfl
  | _ =>
    simp only [stripEncryptedReasoning]
    rfl

theorem not_encrypted_strip (value : Json) : ¬Encrypted (stripEncryptedReasoning value).1 := by
  induction value using Json.inductionOn with
  | leaf value harray hobject =>
    have hsame : (stripEncryptedReasoning value).1 = value := by
      cases value with
      | array items => exact nomatch harray
      | object fields => exact nomatch hobject
      | _ => simp only [stripEncryptedReasoning]
    rw [hsame]
    exact not_encrypted_leaf harray hobject
  | array items ih =>
    have harray : (stripEncryptedReasoning (.array items)).1 = .array (stripItems items).1 := by
      rw [stripEncryptedReasoning]
    rw [harray, stripItems_fst, encrypted_array]
    rintro ⟨item', hitem', hencrypted⟩
    obtain ⟨item, hitem, rfl⟩ := List.mem_map.mp hitem'
    obtain ⟨hmem, hkept⟩ := List.mem_filter.mp hitem
    rcases hencrypted with hcompaction | hencrypted
    · exact nomatch (isEncryptedCompaction_strip ((Bool.not_eq_true' _).mp hkept)).symm.trans hcompaction
    · exact ih item hmem hencrypted
  | object fields ih =>
    rw [stripEncryptedReasoning_object, encrypted_object, isEncryptedReasoning_without]
    rintro (hreasoning | ⟨entry', hentry', hencrypted⟩)
    · exact nomatch hreasoning
    · rw [withoutEncryptedContent_eq, stripFields_fst] at hentry'
      obtain ⟨entry, hentry, rfl⟩ := List.mem_map.mp (List.mem_filter.mp hentry').1
      exact ih entry hentry hencrypted

/-! ## Recovery -/

theorem tryRecover_eq_none (request : Json) (attempted : Bool) :
    tryRecoverEncryptedContent request attempted = none ↔ attempted = true ∨ ¬Encrypted request := by
  unfold tryRecoverEncryptedContent
  cases attempted with
  | true => exact ⟨fun _ => .inl rfl, fun _ => rfl⟩
  | false =>
    rw [if_neg Bool.false_ne_true, ← changed_iff]
    dsimp only
    cases (stripEncryptedReasoning request).2 with
    | true => exact ⟨nofun, fun h => (h.resolve_left nofun rfl).elim⟩
    | false => exact ⟨fun _ => .inr nofun, fun _ => rfl⟩

/-- A request is recovered once, and only one that has encrypted content. What it is recovered to has none, so it is
not recovered again, and differs from it in nothing else. -/
theorem encrypted_content_recovered (request : Json) :
    tryRecoverEncryptedContent request true = none ∧
    (tryRecoverEncryptedContent request false = none ↔ ¬Encrypted request) ∧
    ∀ recovered, tryRecoverEncryptedContent request false = some recovered →
      ¬Encrypted recovered ∧ (∀ attempted, tryRecoverEncryptedContent recovered attempted = none) ∧
        Stripped request recovered := by
  refine ⟨rfl, (tryRecover_eq_none request false).trans ⟨fun h => h.resolve_left nofun, .inr⟩, fun recovered h => ?_⟩
  have hrecovered : (stripEncryptedReasoning request).1 = recovered := by
    unfold tryRecoverEncryptedContent at h
    rw [if_neg Bool.false_ne_true] at h
    dsimp only at h
    split at h
    case isTrue => exact Option.some.inj h
    case isFalse => exact nomatch h
  subst hrecovered
  have hnone := not_encrypted_strip request
  exact ⟨hnone, fun attempted => (tryRecover_eq_none _ attempted).mpr (.inr hnone), stripped_strip request⟩

theorem encrypted_content_recovered_compaction :
    Stripped (.array [.object [("encrypted_content", .string "x"), ("type", .string "compaction")], .string "next"])
      (.array [.string "next"]) := by
  have hrecovered : tryRecoverEncryptedContent
      (.array [.object [("encrypted_content", .string "x"), ("type", .string "compaction")], .string "next"]) false =
      some (.array [.string "next"]) := by decide +kernel
  exact ((encrypted_content_recovered _).2.2 _ hrecovered).2.2

/-- A reasoning object loses its id too, and encrypted content that was attempted before is not recovered. -/
theorem encrypted_content_recovered_otherwise :
    (¬∀ (fields recovered : Json.Fields), tryRecoverEncryptedContent (.object fields) false = some (.object recovered) →
      ∀ key text, key ≠ "encrypted_content" → fields.get key = some (.string text) →
        recovered.get key = some (.string text)) ∧
    ¬∀ request attempted, tryRecoverEncryptedContent request attempted = none ↔ ¬Encrypted request := by
  have hencrypted : tryRecoverEncryptedContent (.object
      [("encrypted_content", .string "x"), ("id", .string "rs_1"), ("type", .string "reasoning")]) false =
      some (.object [("type", .string "reasoning")]) := by decide +kernel
  refine ⟨fun h => ?_, fun h => ?_⟩
  · exact nomatch h _ _ hencrypted "id" "rs_1" (by decide) rfl
  · refine (h (.object [("encrypted_content", .string "x"), ("type", .string "reasoning")]) true).mp rfl (.inr ?_)
    exact ⟨_, .here, by decide +kernel⟩

end Zenith.Gateway
