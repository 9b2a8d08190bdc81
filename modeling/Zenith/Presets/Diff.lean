import Mathlib
import Zenith.Lib.JsonDiff
import Zenith.Presets.Settings

/-!
# The changes of a preset

`configuration_diff` of `config_presets.rs`: what an operator is shown before a preset is applied. `diffValue` carries
the text of its path; `diffValue_eq` says that it lists the `edits` of the two values, each with the pointer of its
path. `configuration_diff_exact` is what follows for settings.
-/

namespace Zenith.Presets

open Json JsonDiff JsonPointer

structure ConfigurationPresetChange where
  path : String
  before : Json
  after : Json
deriving DecidableEq

/-- `str::replace` of a character. -/
def replaceChar (c : Char) (text : List Char) (value : List Char) : List Char :=
  value.flatMap fun c' => if c' = c then text else [c']

def pointerSegment (value : String) : String :=
  .ofList (replaceChar '/' ['~', '1'] (replaceChar '~' ['~', '0'] value.toList))

def diffValue (path : String) (before after : Json) : List ConfigurationPresetChange :=
  if before = after then []
  else
    match before, after with
    | .object before, .object after =>
      (keys before after).flatMap fun key =>
        diffValue (path ++ "/" ++ pointerSegment key) ((Fields.get before key).getD .null)
          ((Fields.get after key).getD .null)
    | .array before, .array after =>
      if before.length = after.length then
        (before.zip after).zipIdx.attach.flatMap fun ⟨((before, after), index), _⟩ =>
          diffValue (path ++ "/" ++ toString index) before after
      else [⟨if path = "" then "/" else path, .array before, .array after⟩]
    | before, after => [⟨if path = "" then "/" else path, before, after⟩]
termination_by sizeOf before
decreasing_by
  · exact sizeOf_child_lt ⟨.object after, .object before after⟩ key
  · have hmem := (List.of_mem_zip (List.fst_mem_of_mem_zipIdx ‹_›)).1
    have hlt := List.sizeOf_lt_of_mem hmem
    dsimp only at hlt
    simp only [Json.array.sizeOf_spec]
    omega

def configurationDiff (before after : ConfigurationPresetSettings) : List ConfigurationPresetChange :=
  diffValue "" before.toJson after.toJson

/-! ## The pointers -/

theorem pointerSegment_eq (value : String) : pointerSegment value = .ofList (escape value.toList) := by
  rw [pointerSegment, replaceChar, replaceChar, List.flatMap_assoc, escape]
  refine congrArg String.ofList (List.flatMap_congr fun c _ => ?_)
  rw [escapeChar]
  split
  case isTrue => rfl
  case isFalse => rw [List.flatMap_singleton]

example : pointerSegment "gpt/5~mini" = "gpt~15~0mini" := by decide

/-- The text of a number has nothing to escape. -/
theorem escape_toString (index : Nat) : .ofList (escape (toString index).toList) = toString index := by
  have hdigits : ∀ c ∈ (toString index).toList, escapeChar c = [c] := by
    intro c hc
    have hmem : c ∈ Nat.toDigits 10 index := by
      rw [← Nat.toList_repr]
      exact hc
    have hdigit : c.isDigit = true := Nat.isDigit_of_mem_toDigits (b := 10) (by decide) (by decide) hmem
    rw [escapeChar, if_neg, if_neg] <;> rintro rfl <;> exact absurd hdigit (by decide)
  rw [escape, List.flatMap_congr hdigits, List.flatMap_singleton', String.ofList_toList]

/-- The path that is shown for an edit under `path`. -/
def shown (path : List String) : String := if path = [] then "/" else render path

def change (path : List String) (edit : Edit) : ConfigurationPresetChange :=
  ⟨shown (path ++ edit.path), edit.before, edit.after⟩

theorem change_under (path : List String) (segment : String) (edit : Edit) :
    change path (edit.under segment) = change (path ++ [segment]) edit := by
  rw [change, change, Edit.under, List.append_cons]

theorem render_eq_empty {path : List String} : render path = "" ↔ path = [] :=
  render_injective.eq_iff' rfl

theorem diffValue_self (path : String) (value : Json) : diffValue path value value = [] := by
  unfold diffValue
  rw [if_pos rfl]

theorem diffValue_object (path : String) {fields fields' : Fields} (hne : Json.object fields ≠ .object fields') :
    diffValue path (.object fields) (.object fields') =
      (keys fields fields').flatMap fun key =>
        diffValue (path ++ "/" ++ pointerSegment key) (child (.object fields) key) (child (.object fields') key) := by
  rw [diffValue, if_neg hne]
  rfl

theorem diffValue_array (path : String) {items items' : List Json} (hne : Json.array items ≠ .array items')
    (hlength : items.length = items'.length) :
    diffValue path (.array items) (.array items') =
      (List.range items.length).flatMap fun index =>
        diffValue (path ++ "/" ++ toString index) (child (.array items) (toString index))
          (child (.array items') (toString index)) := by
  rw [diffValue, if_neg hne]
  dsimp only
  rw [if_pos hlength, List.flatMap_def, List.flatMap_def]
  refine congrArg List.flatten (List.ext_getElem (by simp [hlength]) fun index _ hindex => ?_)
  rw [List.length_map, List.length_range] at hindex
  have hindex' : index < items'.length := hlength ▸ hindex
  have hchild : child (.array items) (toString index) = items[index] := by
    rw [child_toString, List.getElem?_eq_getElem hindex, Option.getD_some]
  have hchild' : child (.array items') (toString index) = items'[index] := by
    rw [child_toString, List.getElem?_eq_getElem hindex', Option.getD_some]
  rw [List.getElem_map, List.getElem_map, List.getElem_range, hchild, hchild']
  simp

theorem diffValue_leaf (path : String) {before after : Json} (hne : before ≠ after) (h : places before after = none) :
    diffValue path before after = [⟨if path = "" then "/" else path, before, after⟩] := by
  unfold diffValue
  rw [if_neg hne]
  split
  case h_1 => exact nomatch h
  case h_2 =>
    split
    case isTrue hlength => exact nomatch (if_pos hlength).symm.trans h
    case isFalse => rfl
  case h_3 => rfl

theorem diffValue_eq (before after : Json) (path : List String) :
    diffValue (render path) before after = (edits before after).map (change path) := by
  revert path
  refine compareOn before after ?same ?inner ?outer
  case same =>
    intro value path
    rw [diffValue_self, edits_self, List.map_nil]
  case inner =>
    intro before after segments hne hplaces ih path
    have hunder : ∀ segment, ((edits (child before segment) (child after segment)).map (Edit.under segment)).map
        (change path) = diffValue (render path ++ "/" ++ .ofList (escape segment.toList)) (child before segment)
          (child after segment) := by
      intro segment
      rw [← render_concat, ih segment (path ++ [segment]), List.map_map]
      exact List.map_congr_left fun edit _ => change_under path segment edit
    rw [edits_of_places hne hplaces, List.map_flatMap]
    simp only [hunder]
    cases sameShape_of_places hplaces with
    | object fields fields' =>
      obtain rfl := Option.some.inj hplaces
      simp only [diffValue_object _ hne, pointerSegment_eq]
    | array hlength =>
      rw [places, if_pos hlength] at hplaces
      obtain rfl := Option.some.inj hplaces
      rw [diffValue_array _ hne hlength, List.flatMap_map]
      simp only [escape_toString]
  case outer =>
    intro before after hne hplaces path
    rw [edits_of_no_places hne hplaces, List.map_singleton, diffValue_leaf _ hne hplaces, change, List.append_nil, shown]
    simp only [render_eq_empty]

/-! ## Settings -/

theorem shown_of_ne_nil {path : List String} (h : path ≠ []) : shown path = render path := if_neg h

/-- Settings are objects, so that no change is at the root. -/
theorem path_ne_nil (before after : ConfigurationPresetSettings) {edit : Edit}
    (hedit : edit ∈ edits before.toJson after.toJson) : edit.path ≠ [] := by
  by_cases hne : before.toJson = after.toJson
  · rw [hne, edits_self] at hedit
    exact nomatch hedit
  · obtain ⟨segments, hplaces⟩ := exists_places (.object _ _ : SameShape before.toJson after.toJson)
    rw [edits_of_places hne hplaces] at hedit
    obtain ⟨segment, -, hedit⟩ := List.mem_flatMap.mp hedit
    obtain ⟨inner, -, rfl⟩ := List.mem_map.mp hedit
    exact List.cons_ne_nil _ _

theorem configurationDiff_eq (before after : ConfigurationPresetSettings) :
    configurationDiff before after = (edits before.toJson after.toJson).map fun edit =>
      ⟨render edit.path, edit.before, edit.after⟩ := by
  rw [configurationDiff, show "" = render [] from rfl, diffValue_eq]
  refine List.map_congr_left fun edit hedit => ?_
  rw [change, List.nil_append, shown_of_ne_nil (path_ne_nil before after hedit)]

/-- `before` with the new values at the shown paths. -/
def applyChanges (changes : List ConfigurationPresetChange) (value : Json) : Json :=
  changes.foldl (fun value change => replace (segments change.path) change.after value) value

/-- The changes are none exactly for settings that serialize alike; their pointers lie apart, so that no place is
changed twice; each has the values of its place; and together they make the one document the other. Throughout, an
absent member counts as `null`. -/
theorem configuration_diff_exact (before after : ConfigurationPresetSettings) :
    (configurationDiff before after = [] ↔ SameJson before.toJson after.toJson) ∧
    (configurationDiff before after).Pairwise (fun change change' =>
      change.path ≠ change'.path ∧ Apart (segments change.path) (segments change'.path)) ∧
    (∀ change ∈ configurationDiff before after,
      lookup (segments change.path) before.toJson = change.before ∧
      lookup (segments change.path) after.toJson = change.after) ∧
    SameJson (applyChanges (configurationDiff before after) before.toJson) after.toJson := by
  rw [configurationDiff_eq]
  refine ⟨?_, ?_, ?_, ?_⟩
  · rw [List.map_eq_nil_iff, edits_eq_nil_iff]
  · rw [List.pairwise_map]
    refine (pairwise_edits before.toJson after.toJson).imp fun {edit edit'} hapart => ⟨?_, ?_⟩
    · exact fun heq => hapart.ne (render_injective heq)
    · rw [segments_render, segments_render]
      exact hapart
  · intro change hchange
    obtain ⟨edit, hedit, rfl⟩ := List.mem_map.mp hchange
    rw [segments_render]
    exact lookup_of_mem_edits before.toJson after.toJson edit hedit
  · rw [applyChanges, List.foldl_map]
    simp only [segments_render]
    exact patch_edits before.toJson after.toJson

end Zenith.Presets
