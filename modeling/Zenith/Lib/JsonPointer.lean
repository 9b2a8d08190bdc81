import Mathlib
import Zenith.Lib.JsonSize

/-!
# JSON pointers

A pointer is a text such as `/sources/0/name`: the segments lead from a value to a member or an element of it, and
their `~` and `/` are escaped. `segments_render` says that a pointer has the segments that it was rendered from.

`lookup` reads along segments and `replace` writes. Here a member that is absent counts as `null`, so that a pointer
also leads to what an object could have; `SameJson` is the equality that goes with this reading.
-/

namespace Zenith.JsonPointer

open Json

/-! ## Texts -/

def escapeChar (c : Char) : List Char :=
  if c = '~' then ['~', '0'] else if c = '/' then ['~', '1'] else [c]

def escape (segment : List Char) : List Char := segment.flatMap escapeChar

def unescape : List Char → List Char
  | '~' :: '0' :: cs => '~' :: unescape cs
  | '~' :: '1' :: cs => '/' :: unescape cs
  | c :: cs => c :: unescape cs
  | [] => []

def render (segments : List String) : String :=
  .ofList (segments.flatMap fun segment => '/' :: escape segment.toList)

/-- The segments of a pointer: what is between the slashes, without escapes. -/
def segments (pointer : String) : List String :=
  (pointer.toList.splitOn '/').tail.map fun segment => .ofList (unescape segment)

theorem unescape_cons {c : Char} (hc : c ≠ '~') (cs : List Char) : unescape (c :: cs) = c :: unescape cs := by
  rw [unescape] <;> intros <;> exact absurd ‹_› hc

theorem unescape_escape (segment : List Char) : unescape (escape segment) = segment := by
  induction segment with
  | nil => rfl
  | cons c cs ih =>
    rw [escape, List.flatMap_cons, escapeChar]
    split
    case isTrue hc => rw [hc, List.cons_append, List.cons_append, unescape, List.nil_append, ← escape, ih]
    case isFalse hc =>
      split
      case isTrue hslash => rw [hslash, List.cons_append, List.cons_append, unescape, List.nil_append, ← escape, ih]
      case isFalse => rw [List.singleton_append, unescape_cons hc, ← escape, ih]

theorem slash_not_mem_escape (segment : List Char) : '/' ∉ escape segment := by
  intro h
  obtain ⟨c, -, hc⟩ := List.mem_flatMap.mp h
  rw [escapeChar] at hc
  split at hc
  case isTrue => exact absurd hc (by decide)
  case isFalse =>
    split at hc
    case isTrue => exact absurd hc (by decide)
    case isFalse hslash => exact hslash (List.mem_singleton.mp hc).symm

theorem splitOn_render {word : List Char} (hword : '/' ∉ word) (segments : List String) :
    (word ++ segments.flatMap fun segment => '/' :: escape segment.toList).splitOn '/' =
      word :: segments.map fun segment => escape segment.toList := by
  induction segments generalizing word with
  | nil => rw [List.flatMap_nil, List.append_nil, List.splitOn_eq_singleton hword, List.map_nil]
  | cons segment segments ih =>
    rw [List.flatMap_cons, List.cons_append, List.splitOn_append_cons_self, List.splitOn_eq_singleton hword,
      ih (slash_not_mem_escape segment.toList), List.map_cons, List.singleton_append]

theorem segments_render (path : List String) : segments (render path) = path := by
  have hsplit := @splitOn_render [] List.not_mem_nil path
  rw [List.nil_append] at hsplit
  rw [segments, render, String.toList_ofList, hsplit, List.tail_cons, List.map_map]
  conv_rhs => rw [← List.map_id path]
  refine List.map_congr_left fun segment _ => ?_
  rw [Function.comp_apply, unescape_escape, String.ofList_toList, id]

theorem render_injective : Function.Injective render :=
  Function.LeftInverse.injective segments_render

theorem render_concat (path : List String) (segment : String) :
    render (path ++ [segment]) = render path ++ "/" ++ .ofList (escape segment.toList) := by
  apply String.toList_injective
  simp [render]

/-! ## Members and elements -/

/-- The index that a segment is the text of. -/
def readIndex (segment : String) : Option Nat := segment.toNat?.filter fun index => toString index = segment

theorem readIndex_toString (index : Nat) : readIndex (toString index) = some index := by
  have hread : (toString index).toNat? = some index := Nat.toNat?_repr index
  rw [readIndex, hread, Option.filter_some, decide_eq_true rfl, if_pos rfl]

theorem toString_of_readIndex {segment : String} {index : Nat} (h : readIndex segment = some index) :
    segment = toString index := by
  obtain ⟨-, htext⟩ := Option.filter_eq_some_iff.mp h
  exact (of_decide_eq_true htext).symm

def child : Json → String → Json
  | .object fields, key => (Fields.get fields key).getD .null
  | .array items, segment => ((readIndex segment).bind (items[·]?)).getD .null
  | _, _ => .null

/-- `value` has a place for a child under this segment. -/
def Place (value : Json) (segment : String) : Prop :=
  match value with
  | .object _ => True
  | .array items => ∃ index < items.length, segment = toString index
  | _ => False

def setChild (value : Json) (segment : String) (new : Json) : Json :=
  match value with
  | .object fields => .object (Fields.insert fields segment new)
  | .array items => .array ((readIndex segment).elim items (items.set · new))
  | value => value

section
variable {value new : Json} {items : List Json} {segment segment' : String} {index : Nat}

theorem child_toString (items : List Json) (index : Nat) :
    child (.array items) (toString index) = items[index]?.getD .null := by
  rw [child, readIndex_toString, Option.bind_some]

theorem child_setChild (h : Place value segment) :
    child (setChild value segment new) segment' = if segment' = segment then new else child value segment' := by
  cases value with
  | object fields =>
    rw [setChild, child, Fields.get_insert]
    split <;> rfl
  | array items =>
    obtain ⟨index, hindex, rfl⟩ := h
    rw [setChild, readIndex_toString, Option.elim_some, child]
    split
    case isTrue heq =>
      rw [heq, readIndex_toString, Option.bind_some, List.getElem?_set_self hindex, Option.getD_some]
    case isFalse hne =>
      rw [child]
      cases hread : readIndex segment' with
      | none => rfl
      | some index' =>
        have hother : index ≠ index' := by
          rintro rfl
          exact hne (toString_of_readIndex hread)
        rw [Option.bind_some, Option.bind_some, List.getElem?_set_ne hother]
  | _ => exact h.elim

/-- Both are objects, or arrays of one length. -/
inductive SameShape : Json → Json → Prop
  | object (fields fields' : Fields) : SameShape (.object fields) (.object fields')
  | array {items items' : List Json} : items.length = items'.length → SameShape (.array items) (.array items')

theorem SameShape.place {value value' : Json} (h : SameShape value value') :
    Place value segment ↔ Place value' segment := by
  cases h with
  | object => exact Iff.rfl
  | array hlength => rw [Place, Place, hlength]

theorem SameShape.symm {value value' : Json} (h : SameShape value value') : SameShape value' value := by
  cases h with
  | object fields fields' => exact .object fields' fields
  | array hlength => exact .array hlength.symm

theorem SameShape.trans {value value' value'' : Json} (h : SameShape value value') (h' : SameShape value' value'') :
    SameShape value value'' := by
  cases h with
  | object fields =>
    cases h' with
    | object _ fields'' => exact .object fields fields''
  | array hlength =>
    cases h' with
    | array hlength' => exact .array (hlength.trans hlength')

theorem Place.sameShape (h : Place value segment) : SameShape value value := by
  cases value with
  | object fields => exact .object fields fields
  | array items => exact .array rfl
  | _ => exact h.elim

theorem sameShape_setChild (h : Place value segment) (new : Json) : SameShape value (setChild value segment new) := by
  cases value with
  | object fields => exact .object fields _
  | array items =>
    obtain ⟨index, -, rfl⟩ := h
    rw [setChild, readIndex_toString]
    exact .array List.length_set.symm
  | _ => exact h.elim

theorem sizeOf_child_lt (h : ∃ value', SameShape value value') (segment : String) :
    sizeOf (child value segment) < sizeOf value := by
  obtain ⟨value', h⟩ := h
  cases h with
  | object fields =>
    rw [child]
    cases hget : Fields.get fields segment with
    | none => cases fields <;> simp
    | some member =>
      have hmem := List.sizeOf_lt_of_mem (mem_of_get hget)
      simp only [Option.getD_some, Json.object.sizeOf_spec]
      simp only [Prod.mk.sizeOf_spec] at hmem
      omega
  | @array items =>
    rw [child]
    cases hget : (readIndex segment).bind (items[·]?) with
    | none => cases items <;> simp
    | some item =>
      obtain ⟨index, -, hitem⟩ := Option.bind_eq_some_iff.mp hget
      have hmem := List.sizeOf_lt_of_mem (List.mem_of_getElem? hitem)
      simp only [Option.getD_some, Json.array.sizeOf_spec]
      omega

end

/-! ## Paths -/

def lookup : List String → Json → Json
  | [], value => value
  | segment :: path, value => lookup path (child value segment)

/-- `value`, with `new` for what is at the path. -/
def replace : List String → Json → Json → Json
  | [], new, _ => new
  | segment :: path, new, value => setChild value segment (replace path new (child value segment))

/-- Neither path leads to the other or to something in it. -/
def Apart (path path' : List String) : Prop := ¬path <+: path' ∧ ¬path' <+: path

variable {path path' : List String}

theorem apart_cons {segment : String} :
    Apart (segment :: path) (segment :: path') ↔ Apart path path' := by
  rw [Apart, Apart, List.prefix_cons_inj, List.prefix_cons_inj]

theorem apart_of_ne {segment segment' : String} (h : segment ≠ segment') :
    Apart (segment :: path) (segment' :: path') :=
  ⟨fun hle => h (List.cons_prefix_cons.mp hle).1, fun hle => h (List.cons_prefix_cons.mp hle).1.symm⟩

theorem Apart.ne (h : Apart path path') : path ≠ path' := by
  rintro rfl
  exact h.1 List.prefix_rfl

/-! ## Equality -/

/-- Equal values, where an absent member counts as `null`. -/
inductive SameJson : Json → Json → Prop
  | refl (value : Json) : SameJson value value
  | array {items items' : List Json} : List.Forall₂ SameJson items items' → SameJson (.array items) (.array items')
  | object {fields fields' : Fields} :
      (∀ key, SameJson ((Fields.get fields key).getD .null) ((Fields.get fields' key).getD .null)) →
      SameJson (.object fields) (.object fields')

theorem forall₂_of_child {items items' : List Json} (hlength : items.length = items'.length)
    (h : ∀ segment, SameJson (child (.array items) segment) (child (.array items') segment)) :
    List.Forall₂ SameJson items items' := by
  refine List.forall₂_iff_get.mpr ⟨hlength, fun index hindex hindex' => ?_⟩
  have hchild := h (toString index)
  rw [child_toString, child_toString, List.getElem?_eq_getElem hindex, List.getElem?_eq_getElem hindex'] at hchild
  exact hchild

variable {value value' : Json}

/-- Containers of one shape are the same when their children are. -/
theorem sameJson_of_child (hshape : SameShape value value')
    (h : ∀ segment, SameJson (child value segment) (child value' segment)) : SameJson value value' := by
  cases hshape with
  | object fields fields' => exact .object h
  | array hlength => exact .array (forall₂_of_child hlength h)

theorem SameJson.child (h : SameJson value value') (segment : String) :
    SameJson (child value segment) (child value' segment) := by
  cases h with
  | refl => exact .refl _
  | object h => exact h segment
  | @array items items' h =>
    rw [JsonPointer.child, JsonPointer.child]
    cases readIndex segment with
    | none => exact .refl .null
    | some index =>
      rw [Option.bind_some, Option.bind_some]
      by_cases hindex : index < items.length
      · have hindex' : index < items'.length := h.length_eq ▸ hindex
        rw [List.getElem?_eq_getElem hindex, List.getElem?_eq_getElem hindex']
        exact (List.forall₂_iff_get.mp h).2 index hindex hindex'
      · have hindex' : ¬index < items'.length := h.length_eq ▸ hindex
        rw [List.getElem?_eq_none (Nat.le_of_not_lt hindex), List.getElem?_eq_none (Nat.le_of_not_lt hindex')]
        exact .refl .null

theorem SameJson.eq_or_shape (h : SameJson value value') :
    value = value' ∨ SameShape value value' := by
  cases h with
  | refl => exact .inl rfl
  | array h => exact .inr (.array h.length_eq)
  | object => exact .inr (.object _ _)

end Zenith.JsonPointer
