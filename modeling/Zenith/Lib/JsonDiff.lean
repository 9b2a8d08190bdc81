import Mathlib
import Zenith.Lib.JsonPointer

/-!
# Differences between JSON values

`edits` goes down two values at once, through objects and through arrays of one length, and lists the places where
they differ. The list is empty exactly for values that are the same (`edits_eq_nil_iff`), its paths lie apart
(`pairwise_edits`), and it turns the one value into the other (`patch_edits`).
-/

namespace Zenith.JsonDiff

open Json JsonPointer

structure Edit where
  path : List String
  before : Json
  after : Json
deriving DecidableEq

def Edit.under (segment : String) (edit : Edit) : Edit := { edit with path := segment :: edit.path }

/-- The keys of two objects, in order. -/
def keys (fields fields' : Fields) : List String :=
  (((fields ++ fields').map Prod.fst).dedup).mergeSort fun key key' => key ≤ key'

/-- The segments under which two values are compared further. -/
def places : Json → Json → Option (List String)
  | .object fields, .object fields' => some (keys fields fields')
  | .array items, .array items' =>
    if items.length = items'.length then some ((List.range items.length).map toString) else none
  | _, _ => none

section
variable {before after : Json} {segments : List String}

theorem mem_keys {fields fields' : Fields} {key : String} :
    key ∈ keys fields fields' ↔ key ∈ fields.map Prod.fst ∨ key ∈ fields'.map Prod.fst := by
  rw [keys, List.mem_mergeSort, List.mem_dedup, List.map_append, List.mem_append]

theorem get_of_not_mem {fields : Fields} {key : String} (h : key ∉ fields.map Prod.fst) :
    Fields.get fields key = none := by
  cases hget : Fields.get fields key with
  | none => rfl
  | some value => exact absurd (List.mem_map_of_mem (mem_of_get hget)) h

theorem sameShape_of_places (h : places before after = some segments) : SameShape before after := by
  unfold places at h
  split at h
  case h_1 fields fields' => exact .object fields fields'
  case h_2 =>
    split at h
    case isTrue hlength => exact .array hlength
    case isFalse => exact nomatch h
  case h_3 => exact nomatch h

theorem exists_places (h : SameShape before after) : ∃ segments, places before after = some segments := by
  cases h with
  | object => exact ⟨_, rfl⟩
  | array hlength => exact ⟨_, if_pos hlength⟩

theorem nodup_places (h : places before after = some segments) : segments.Nodup := by
  cases sameShape_of_places h with
  | object fields fields' =>
    obtain rfl := Option.some.inj h
    exact (List.mergeSort_perm _ _).nodup_iff.mpr (List.nodup_dedup _)
  | array hlength =>
    rw [places, if_pos hlength] at h
    obtain rfl := Option.some.inj h
    exact (List.nodup_range).map fun _ _ => Nat.repr_injective

theorem place_of_places (h : places before after = some segments) {segment : String} (hmem : segment ∈ segments) :
    Place before segment := by
  cases sameShape_of_places h with
  | object => trivial
  | array hlength =>
    rw [places, if_pos hlength] at h
    obtain rfl := Option.some.inj h
    obtain ⟨index, hindex, rfl⟩ := List.mem_map.mp hmem
    exact ⟨index, List.mem_range.mp hindex, rfl⟩

/-- No other segment leads to anything. -/
theorem child_eq_of_places (h : places before after = some segments) {segment : String} (hmem : segment ∉ segments) :
    child before segment = child after segment := by
  cases sameShape_of_places h with
  | object fields fields' =>
    obtain rfl := Option.some.inj h
    obtain ⟨hbefore, hafter⟩ := not_or.mp (mem_keys.not.mp hmem)
    rw [child, child, get_of_not_mem hbefore, get_of_not_mem hafter]
  | @array items items' hlength =>
    rw [places, if_pos hlength] at h
    obtain rfl := Option.some.inj h
    rw [child, child]
    cases hread : readIndex segment with
    | none => rfl
    | some index =>
      have hindex : items.length ≤ index := by
        by_contra hlt
        refine hmem (List.mem_map.mpr ⟨index, List.mem_range.mpr (Nat.lt_of_not_le hlt), ?_⟩)
        exact (toString_of_readIndex hread).symm
      rw [Option.bind_some, Option.bind_some, List.getElem?_eq_none hindex, List.getElem?_eq_none (hlength ▸ hindex)]

end

/-- Where two values differ. -/
def edits (before after : Json) : List Edit :=
  if before = after then []
  else
    match _h : places before after with
    | some segments =>
      segments.flatMap fun segment => (edits (child before segment) (child after segment)).map (Edit.under segment)
    | none => [⟨[], before, after⟩]
termination_by sizeOf before
decreasing_by exact sizeOf_child_lt ⟨after, sameShape_of_places _h⟩ _

/-- The new values in their places. -/
def patch (edits : List Edit) (value : Json) : Json :=
  edits.foldl (fun value edit => replace edit.path edit.after value) value

section
variable {before after : Json} {segments : List String}

theorem edits_self (value : Json) : edits value value = [] := by
  rw [edits, if_pos rfl]

theorem edits_of_places (hne : before ≠ after) (h : places before after = some segments) :
    edits before after =
      segments.flatMap fun segment =>
        (edits (child before segment) (child after segment)).map (Edit.under segment) := by
  rw [edits, if_neg hne]
  split
  case h_1 segments' h' => rw [Option.some.inj (h.symm.trans h')]
  case h_2 h' => exact nomatch h.symm.trans h'

theorem edits_of_no_places (hne : before ≠ after) (h : places before after = none) :
    edits before after = [⟨[], before, after⟩] := by
  rw [edits, if_neg hne]
  split
  case h_1 h' => exact nomatch h.symm.trans h'
  case h_2 => rfl

/-- Induction along the comparison. -/
@[elab_as_elim]
theorem compareOn {motive : Json → Json → Prop} (before after : Json)
    (same : ∀ value, motive value value)
    (inner : ∀ before after segments, before ≠ after → places before after = some segments →
      (∀ segment, motive (child before segment) (child after segment)) → motive before after)
    (outer : ∀ before after, before ≠ after → places before after = none → motive before after) :
    motive before after :=
  if heq : before = after then heq ▸ same before
  else
    match h : places before after with
    | some segments =>
      inner before after segments heq h fun segment =>
        compareOn (child before segment) (child after segment) same inner outer
    | none => outer before after heq h
termination_by sizeOf before
decreasing_by exact sizeOf_child_lt ⟨after, sameShape_of_places h⟩ _

/-! ## Completeness -/

theorem edits_eq_nil_iff (before after : Json) : edits before after = [] ↔ SameJson before after := by
  refine compareOn before after ?same ?inner ?outer
  case same =>
    intro value
    rw [edits_self]
    exact ⟨fun _ => .refl value, fun _ => rfl⟩
  case inner =>
    intro before after segments hne hplaces ih
    rw [edits_of_places hne hplaces, List.flatMap_eq_nil_iff]
    constructor
    · intro h
      refine sameJson_of_child (sameShape_of_places hplaces) fun segment => ?_
      by_cases hmem : segment ∈ segments
      · exact (ih segment).mp (List.map_eq_nil_iff.mp (h segment hmem))
      · rw [child_eq_of_places hplaces hmem]
        exact .refl _
    · intro h segment _
      rw [(ih segment).mpr (h.child segment), List.map_nil]
  case outer =>
    intro before after hne hplaces
    rw [edits_of_no_places hne hplaces]
    refine ⟨nofun, fun h => ?_⟩
    rcases h.eq_or_shape with heq | hshape
    · exact absurd heq hne
    · obtain ⟨segments, hsegments⟩ := exists_places hshape
      exact nomatch hsegments.symm.trans hplaces

/-! ## The values and the paths -/

theorem lookup_of_mem_edits (before after : Json) :
    ∀ edit ∈ edits before after, lookup edit.path before = edit.before ∧ lookup edit.path after = edit.after := by
  refine compareOn before after ?same ?inner ?outer
  case same =>
    intro value edit hedit
    rw [edits_self] at hedit
    exact nomatch hedit
  case inner =>
    intro before after segments hne hplaces ih edit hedit
    rw [edits_of_places hne hplaces] at hedit
    obtain ⟨segment, -, hedit⟩ := List.mem_flatMap.mp hedit
    obtain ⟨inner, hinner, rfl⟩ := List.mem_map.mp hedit
    exact ih segment inner hinner
  case outer =>
    intro before after hne hplaces edit hedit
    rw [edits_of_no_places hne hplaces] at hedit
    obtain rfl := List.mem_singleton.mp hedit
    exact ⟨rfl, rfl⟩

theorem pairwise_edits (before after : Json) :
    (edits before after).Pairwise fun edit edit' => Apart edit.path edit'.path := by
  refine compareOn before after ?same ?inner ?outer
  case same =>
    intro value
    rw [edits_self]
    exact List.Pairwise.nil
  case inner =>
    intro before after segments hne hplaces ih
    rw [edits_of_places hne hplaces, List.pairwise_flatMap]
    refine ⟨fun segment _ => ?_, (nodup_places hplaces).imp fun {segment segment'} hsegment => ?_⟩
    · rw [List.pairwise_map]
      exact (ih segment).imp apart_cons.mpr
    · intro edit hedit edit' hedit'
      obtain ⟨edit, -, rfl⟩ := List.mem_map.mp hedit
      obtain ⟨edit', -, rfl⟩ := List.mem_map.mp hedit'
      exact apart_of_ne hsegment
  case outer =>
    intro before after hne hplaces
    rw [edits_of_no_places hne hplaces]
    exact List.pairwise_singleton _ _

/-! ## Patching -/

/-- Edits under one segment change the child there. -/
theorem patch_under {value : Json} {segment : String} (h : Place value segment) (edits : List Edit) :
    SameShape value (patch (edits.map (Edit.under segment)) value) ∧ ∀ segment',
      child (patch (edits.map (Edit.under segment)) value) segment' =
        if segment' = segment then patch edits (child value segment) else child value segment' := by
  induction edits generalizing value with
  | nil =>
    refine ⟨h.sameShape, fun segment' => ?_⟩
    split
    case isTrue heq => rw [heq, List.map_nil, patch, patch, List.foldl_nil, List.foldl_nil]
    case isFalse => rfl
  | cons edit edits ih =>
    have hshape := sameShape_setChild h (replace edit.path edit.after (child value segment))
    obtain ⟨ihshape, ihchild⟩ := ih (hshape.place.mp h)
    refine ⟨hshape.trans ihshape, fun segment' => (ihchild segment').trans ?_⟩
    rw [child_setChild h, child_setChild h, if_pos rfl]
    split <;> rfl

/-- Edits under different segments change the children there. -/
theorem patch_flatMap {value : Json} (hshape : SameShape value value) {segments : List String} (hnodup : segments.Nodup)
    (hplace : ∀ segment ∈ segments, Place value segment) (editsOf : String → List Edit) :
    SameShape value (patch (segments.flatMap fun segment => (editsOf segment).map (Edit.under segment)) value) ∧
      ∀ segment',
        child (patch (segments.flatMap fun segment => (editsOf segment).map (Edit.under segment)) value) segment' =
          if segment' ∈ segments then patch (editsOf segment') (child value segment') else child value segment' := by
  induction segments generalizing value with
  | nil => exact ⟨hshape, fun segment' => (if_neg List.not_mem_nil).symm⟩
  | cons segment segments ih =>
    obtain ⟨hnew, hnodup⟩ := List.nodup_cons.mp hnodup
    obtain ⟨hsegment, hsegments⟩ := List.forall_mem_cons.mp hplace
    obtain ⟨hfirst, hchild⟩ := patch_under hsegment (editsOf segment)
    have hself := hfirst.symm.trans hfirst
    obtain ⟨ihshape, ihchild⟩ := ih hself hnodup fun segment' hmem => hfirst.place.mp (hsegments segment' hmem)
    rw [List.flatMap_cons, patch, List.foldl_append]
    refine ⟨hfirst.trans ihshape, fun segment' => (ihchild segment').trans ?_⟩
    rw [hchild]
    by_cases heq : segment' = segment
    · rw [heq, if_pos rfl, if_neg hnew, if_pos List.mem_cons_self]
    · rw [if_neg heq]
      simp only [List.mem_cons, heq, false_or]

theorem patch_edits (before after : Json) : SameJson (patch (edits before after) before) after := by
  refine compareOn before after ?same ?inner ?outer
  case same =>
    intro value
    rw [edits_self]
    exact .refl value
  case inner =>
    intro before after segments hne hplaces ih
    have hshape := sameShape_of_places hplaces
    obtain ⟨hpatched, hchild⟩ := patch_flatMap (hshape.trans hshape.symm) (nodup_places hplaces)
      (fun _ => place_of_places hplaces) fun segment => edits (child before segment) (child after segment)
    rw [edits_of_places hne hplaces]
    refine sameJson_of_child (hpatched.symm.trans hshape) fun segment => ?_
    rw [hchild]
    split
    case isTrue => exact ih segment
    case isFalse hmem =>
      rw [child_eq_of_places hplaces hmem]
      exact .refl _
  case outer =>
    intro before after hne hplaces
    rw [edits_of_no_places hne hplaces]
    exact .refl after

end

end Zenith.JsonDiff
