import Mathlib
import Zenith.Lib.AsciiCase
import Zenith.Lib.SortedMap
import Zenith.Sources.ProtocolBindings

/-!
# Model ids of a preset

What presets do with the ids of models: the lists of `normalize_preset_model_ids` and `normalize_validated_model_ids`,
and the maps of `normalize_model_price_overrides`, `normalize_model_reasoning_allowed_levels` and
`normalize_model_service_tier_overrides`, whose keys they are.

`LikeIds` and `LikeMaps` are the spellings of a list or map that are taken for the same.
-/

namespace Zenith.Presets

open Zenith.Distinct Zenith.Sources Zenith.Tables Zenith.Text

def maxModelIdBytes : Nat := 256

def maxPresetModels : Nat := 4096

def isValidModelId (value : String) : Bool :=
  value ≠ "" && (Bytes.utf8 value).length ≤ maxModelIdBytes && !value.toList.any isControl

theorem isValidModelId_asciiLower (s : String) : isValidModelId (asciiLower s) = isValidModelId s := by
  rw [isValidModelId, isValidModelId, length_utf8_asciiLower, all_isControl_asciiLower]
  simp only [ne_eq, asciiLower_eq_empty]

theorem isValidModelId_congr {s s' : String} (h : asciiLower s = asciiLower s') : isValidModelId s = isValidModelId s' := by
  rw [← isValidModelId_asciiLower s, h, isValidModelId_asciiLower]

/-! ## Lists -/

/-- The loop of both functions. `seen` are the ids before, in lower case. -/
def collectModelIds (invalid : String) : List String → List String → Except String (List String)
  | _, [] => .ok []
  | seen, id :: models =>
    let model := trim id
    if model = "" then collectModelIds invalid seen models
    else if isValidModelId model = false then .error invalid
    else if asciiLower model ∈ seen then collectModelIds invalid seen models
    else (collectModelIds invalid (asciiLower model :: seen) models).map (model :: ·)

def checkModelIds (tooMany invalid : String) (models : List String) : Except String (List String) :=
  if models.length > maxPresetModels then .error tooMany else collectModelIds invalid [] models

def normalizePresetModelIds : List String → Except String (List String) :=
  checkModelIds "configuration preset model list is too large" "configuration preset model id is invalid"

def normalizeValidatedModelIds : List String → Except String (List String) :=
  checkModelIds "model list exceeds the supported limit" "model id is invalid"

/-- Every id that is not blank is valid. -/
def ValidIds (models : List String) : Prop := ∀ id ∈ models, trim id ≠ "" → isValidModelId (trim id) = true

section
variable {tooMany invalid : String} {seen models result : List String}

theorem collectModelIds_eq_ok :
    collectModelIds invalid seen models = .ok result ↔
      ValidIds models ∧ result = keepFirst asciiLower seen ((models.map trim).filter fun model => model ≠ "") := by
  induction models generalizing seen result with
  | nil => exact ⟨fun h => ⟨nofun, (Except.ok.inj h).symm⟩, fun h => congrArg Except.ok h.2.symm⟩
  | cons id models ih =>
    rw [collectModelIds, ValidIds, List.forall_mem_cons, ← ValidIds, List.map_cons]
    by_cases hblank : trim id = ""
    · rw [if_pos hblank, ih, List.filter_cons_of_neg (by simpa using hblank)]
      simp [hblank]
    · rw [if_neg hblank, List.filter_cons_of_pos (by simpa using hblank), keepFirst]
      cases hvalid : isValidModelId (trim id) with
      | false => simp [hblank]
      | true =>
        rw [if_neg Bool.noConfusion]
        by_cases hseen : asciiLower (trim id) ∈ seen
        · rw [if_pos hseen, if_pos hseen, ih]
          simp
        · rw [if_neg hseen, if_neg hseen]
          cases hrest : collectModelIds invalid (asciiLower (trim id) :: seen) models with
          | error message =>
            refine ⟨nofun, fun h => ?_⟩
            exact nomatch hrest.symm.trans (ih.mpr ⟨h.1.2, rfl⟩)
          | ok rest =>
            obtain ⟨hids, rfl⟩ := ih.mp hrest
            exact ⟨fun h => ⟨⟨fun _ => rfl, hids⟩, (Except.ok.inj h).symm⟩, fun h => congrArg Except.ok h.2.symm⟩

theorem checkModelIds_eq_ok :
    checkModelIds tooMany invalid models = .ok result ↔
      models.length ≤ maxPresetModels ∧ ValidIds models ∧ result = normalizeModelIds models := by
  rw [checkModelIds]
  split
  case isTrue hlong => exact ⟨nofun, fun h => absurd h.1 (Nat.not_le_of_gt hlong)⟩
  case isFalse hshort =>
    rw [collectModelIds_eq_ok, normalizeModelIds]
    exact ⟨fun h => ⟨Nat.le_of_not_gt hshort, h⟩, And.right⟩

theorem length_normalizeModelIds_le (models : List String) : (normalizeModelIds models).length ≤ models.length := by
  calc (normalizeModelIds models).length
      ≤ ((models.map trim).filter fun model => model ≠ "").length := (keepFirst_sublist asciiLower [] _).length_le
    _ ≤ (models.map trim).length := List.length_filter_le _ _
    _ = models.length := List.length_map _

theorem validIds_normalizeModelIds (h : ValidIds models) : ValidIds (normalizeModelIds models) := by
  intro model hmodel _
  obtain ⟨hmap, hne⟩ := List.mem_filter.mp ((keepFirst_sublist asciiLower [] _).subset hmodel)
  obtain ⟨id, hid, rfl⟩ := List.mem_map.mp hmap
  rw [trim_trim]
  exact h id hid (of_decide_eq_true hne)

/-- A normalized list is accepted as it is, under any texts of the errors. -/
theorem checkModelIds_idem (h : checkModelIds tooMany invalid models = .ok result) (tooMany' invalid' : String) :
    checkModelIds tooMany' invalid' result = .ok result := by
  obtain ⟨hlength, hvalid, rfl⟩ := checkModelIds_eq_ok.mp h
  refine checkModelIds_eq_ok.mpr ⟨?_, validIds_normalizeModelIds hvalid, (normalizeModelIds_idem models).symm⟩
  exact (length_normalizeModelIds_le models).trans hlength

end

/-! ## Spellings of a list -/

/-- One change of a spelling. -/
inductive IdsStep : List String → List String → Prop
  | spaces (front back : List String) {id id' : String} : trim id = trim id' →
      IdsStep (front ++ id :: back) (front ++ id' :: back)
  | blank (front back : List String) {id : String} : trim id = "" → IdsStep (front ++ back) (front ++ id :: back)
  | repeated (front back : List String) {id id' : String} : id ∈ front → asciiLower (trim id) = asciiLower (trim id') →
      IdsStep (front ++ back) (front ++ id' :: back)

/-- Lists that differ in white space around ids, and in blank and repeated ids. -/
def LikeIds : List String → List String → Prop := Relation.EqvGen IdsStep

variable {models models' : List String}

theorem normalizeModelIds_step (h : IdsStep models models') :
    normalizeModelIds models = normalizeModelIds models' := by
  cases h with
  | spaces front back htrim => rw [normalizeModelIds, normalizeModelIds, List.map_append, List.map_append, List.map_cons, List.map_cons, htrim]
  | @blank front back id hblank =>
    rw [normalizeModelIds, normalizeModelIds, List.map_append, List.map_append, List.map_cons, List.filter_append,
      List.filter_append, List.filter_cons_of_neg (by simpa using hblank)]
  | @repeated front back id id' hid hsame =>
    rw [normalizeModelIds, normalizeModelIds, List.map_append, List.map_append, List.map_cons, List.filter_append,
      List.filter_append]
    by_cases hblank : trim id' = ""
    · rw [List.filter_cons_of_neg (by simpa using hblank)]
    · rw [List.filter_cons_of_pos (by simpa using hblank), keepFirst_repeated]
      have hnonblank : trim id ≠ "" := fun heq => hblank (asciiLower_eq_empty.mp (by rw [← hsame, heq, asciiLower_empty]))
      refine List.mem_map.mpr ⟨trim id, List.mem_filter.mpr ⟨List.mem_map_of_mem hid, decide_eq_true hnonblank⟩, hsame⟩

theorem validIds_step (h : IdsStep models models') : ValidIds models ↔ ValidIds models' := by
  cases h with
  | spaces front back htrim => simp only [ValidIds, List.forall_mem_append, List.forall_mem_cons, htrim]
  | blank front back hblank =>
    simp only [ValidIds, List.forall_mem_append, List.forall_mem_cons, hblank, ne_eq, not_true_eq_false, false_implies,
      true_and]
  | @repeated front back id id' hid hsame =>
    simp only [ValidIds, List.forall_mem_append, List.forall_mem_cons]
    refine and_congr_right fun hfront => ?_
    refine (and_iff_right_of_imp fun _ hne => ?_).symm
    rw [← isValidModelId_congr hsame]
    exact hfront id hid fun heq => hne (asciiLower_eq_empty.mp (by rw [← hsame, heq, asciiLower_empty]))

theorem LikeIds.normalize (h : LikeIds models models') :
    normalizeModelIds models = normalizeModelIds models' := by
  induction h with
  | rel _ _ h => exact normalizeModelIds_step h
  | refl => rfl
  | symm _ _ _ ih => exact ih.symm
  | trans _ _ _ _ _ ih ih' => exact ih.trans ih'

theorem LikeIds.valid (h : LikeIds models models') : ValidIds models ↔ ValidIds models' := by
  induction h with
  | rel _ _ h => exact validIds_step h
  | refl => exact Iff.rfl
  | symm _ _ _ ih => exact ih.symm
  | trans _ _ _ _ _ ih ih' => exact ih.trans ih'

/-- Spellings of a list that are both within the limit, or both beyond it. -/
structure LikeLists (models models' : List String) : Prop where
  ids : LikeIds models models'
  limit : models.length ≤ maxPresetModels ↔ models'.length ≤ maxPresetModels

theorem LikeLists.check (h : LikeLists models models') {tooMany invalid : String}
    {result : List String} :
    checkModelIds tooMany invalid models = .ok result ↔ checkModelIds tooMany invalid models' = .ok result := by
  rw [checkModelIds_eq_ok, checkModelIds_eq_ok, h.limit, h.ids.valid, h.ids.normalize]

end Zenith.Presets
