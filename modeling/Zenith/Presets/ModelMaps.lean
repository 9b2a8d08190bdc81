import Mathlib
import Zenith.Presets.ModelIds
import Zenith.Presets.Settings
import Zenith.Pricing.Catalog

/-!
# Maps with model ids for keys

`normalize_model_price_overrides`, `normalize_model_reasoning_allowed_levels` and
`normalize_model_service_tier_overrides`: each checks and maybe changes an entry, and collects the entries under their
keys in lower case. `normalizeModelMap` is that loop with the check as a parameter, and `normalizeModelMap_idem` and
`LikeMaps.normalize` are what follows for each of the three.
-/

namespace Zenith.Presets

open Zenith.Distinct Zenith.Quota Zenith.Sources Zenith.Tables Zenith.Text

/-! ## The loop -/

section
variable {α β : Type}

/-- The entries under their keys in lower case. `check` gives no value for an entry that is left out. -/
def normalizeModelMap (check : String → α → Except String (Option β)) :
    List (String × β) → List (String × α) → Except String (List (String × β))
  | normalized, [] => .ok normalized
  | normalized, (key, value) :: entries =>
    match check (trim key) value with
    | .error message => .error message
    | .ok none => normalizeModelMap check normalized entries
    | .ok (some value) => normalizeModelMap check (SortedMap.insert normalized (asciiLower (trim key)) value) entries

variable {check : String → α → Except String (Option β)}

/-- What is collected of an entry. -/
def kept (check : String → α → Except String (Option β)) (entry : String × α) : Option (String × β) :=
  match check (trim entry.1) entry.2 with
  | .ok (some value) => some (asciiLower (trim entry.1), value)
  | _ => none

def Accepts (check : String → α → Except String (Option β)) (entries : List (String × α)) : Prop :=
  ∀ entry ∈ entries, ∃ checked, check (trim entry.1) entry.2 = .ok checked

theorem normalizeModelMap_eq_ok {normalized result : List (String × β)} {entries : List (String × α)} :
    normalizeModelMap check normalized entries = .ok result ↔
      Accepts check entries ∧
        result = (entries.filterMap (kept check)).foldl (fun map entry => SortedMap.insert map entry.1 entry.2) normalized := by
  induction entries generalizing normalized with
  | nil => exact ⟨fun h => ⟨nofun, (Except.ok.inj h).symm⟩, fun h => congrArg Except.ok h.2.symm⟩
  | cons entry entries ih =>
    obtain ⟨key, value⟩ := entry
    rw [normalizeModelMap, Accepts, List.forall_mem_cons, ← Accepts, List.filterMap_cons, kept]
    dsimp only
    cases hcheck : check (trim key) value with
    | error message => exact ⟨nofun, fun h => nomatch h.1.1⟩
    | ok checked =>
      have haccepted : ∃ other, (Except.ok checked : Except String (Option β)) = .ok other := ⟨checked, rfl⟩
      cases checked with
      | none =>
        dsimp only
        rw [ih, and_iff_right haccepted]
      | some value =>
        dsimp only
        rw [ih, and_iff_right haccepted, List.foldl_cons]

theorem normalizeModelMap_nil_eq_ok {result : List (String × β)} {entries : List (String × α)} :
    normalizeModelMap check [] entries = .ok result ↔
      Accepts check entries ∧ result = SortedMap.ofEntries (entries.filterMap (kept check)) :=
  normalizeModelMap_eq_ok

theorem kept_eq_some {entry : String × α} {entry' : String × β} :
    kept check entry = some entry' ↔
      check (trim entry.1) entry.2 = .ok (some entry'.2) ∧ entry'.1 = asciiLower (trim entry.1) := by
  unfold kept
  split
  case h_1 value hvalue =>
    rw [hvalue]
    constructor
    · intro h
      obtain rfl := Option.some.inj h
      exact ⟨rfl, rfl⟩
    · rintro ⟨h, hkey⟩
      rw [Option.some.inj (Except.ok.inj h), ← hkey]
  case h_2 hnone => exact ⟨nofun, fun h => absurd h.1 (hnone entry'.2)⟩

end

/-- A check that lets through again what it gave, under the key in lower case. -/
def Stable {β : Type} (check : String → β → Except String (Option β)) : Prop :=
  ∀ key value value', check key value = .ok (some value') → check (asciiLower key) value' = .ok (some value')

section
variable {β : Type} {check : String → β → Except String (Option β)} {entries entries' result : List (String × β)}

theorem normalizeModelMap_idem (hcheck : Stable check) (h : normalizeModelMap check [] entries = .ok result) :
    normalizeModelMap check [] result = .ok result := by
  obtain ⟨-, rfl⟩ := normalizeModelMap_nil_eq_ok.mp h
  have hentries : ∀ entry ∈ SortedMap.ofEntries (entries.filterMap (kept check)),
      check (trim entry.1) entry.2 = .ok (some entry.2) ∧ asciiLower (trim entry.1) = entry.1 := by
    intro entry hentry
    obtain ⟨origin, -, hkept⟩ := List.mem_filterMap.mp (SortedMap.mem_of_mem_ofEntries hentry)
    obtain ⟨hchecked, hkey⟩ := kept_eq_some.mp hkept
    rw [hkey, trim_asciiLower_trim, asciiLower_idem]
    exact ⟨hcheck _ _ _ hchecked, rfl⟩
  refine normalizeModelMap_nil_eq_ok.mpr ⟨fun entry hentry => ⟨_, (hentries entry hentry).1⟩, ?_⟩
  have hkept : ∀ entry ∈ SortedMap.ofEntries (entries.filterMap (kept check)), kept check entry = some entry :=
    fun entry hentry => kept_eq_some.mpr ⟨(hentries entry hentry).1, (hentries entry hentry).2.symm⟩
  rw [List.filterMap_congr hkept, List.filterMap_some, SortedMap.ofEntries_of_sorted (SortedMap.sorted_ofEntries _)]

/-- The key without white space around it. -/
def trimKey (entry : String × β) : String × β := (trim entry.1, entry.2)

/-- Maps that differ in white space around keys, where no two keys of a map become the same. -/
structure LikeMaps (entries entries' : List (String × β)) : Prop where
  distinct : (entries.map fun entry => asciiLower (trim entry.1)).Nodup
  perm : (entries.map trimKey).Perm (entries'.map trimKey)

theorem kept_trimKey (check : String → β → Except String (Option β)) (entry : String × β) :
    kept check (trimKey entry) = kept check entry := by
  rw [kept, kept, trimKey, trim_trim]

theorem accepts_map_trimKey : Accepts check (entries.map trimKey) ↔ Accepts check entries := by
  rw [Accepts, List.forall_mem_map]
  simp only [trimKey, trim_trim, Accepts]

theorem filterMap_kept_map (entries : List (String × β)) :
    (entries.map trimKey).filterMap (kept check) = entries.filterMap (kept check) := by
  rw [List.filterMap_map]
  exact List.filterMap_congr fun entry _ => kept_trimKey check entry

theorem LikeMaps.symm (h : LikeMaps entries entries') : LikeMaps entries' entries where
  distinct := by
    have hkeys : ∀ entries : List (String × β), (entries.map fun entry => asciiLower (trim entry.1)) =
        (entries.map trimKey).map fun entry => asciiLower entry.1 := by
      intro entries
      rw [List.map_map]
      rfl
    rw [hkeys]
    exact (h.perm.map _).nodup_iff.mp (hkeys entries ▸ h.distinct)
  perm := h.perm.symm

theorem LikeMaps.accepts (h : LikeMaps entries entries') : Accepts check entries ↔ Accepts check entries' := by
  rw [← accepts_map_trimKey, ← @accepts_map_trimKey _ _ entries']
  exact ⟨fun haccepts entry hentry => haccepts entry (h.perm.mem_iff.mpr hentry),
    fun haccepts entry hentry => haccepts entry (h.perm.mem_iff.mp hentry)⟩

theorem nodup_filterMap_kept (h : (entries.map fun entry => asciiLower (trim entry.1)).Nodup) :
    ((entries.filterMap (kept check)).map Prod.fst).Nodup := by
  have hsublist : ((entries.filterMap (kept check)).map Prod.fst).Sublist
      (entries.map fun entry => asciiLower (trim entry.1)) := by
    clear h
    induction entries with
    | nil => exact List.Sublist.refl []
    | cons entry entries ih =>
      rw [List.filterMap_cons, List.map_cons]
      split
      case h_1 => exact ih.cons _
      case h_2 entry' hkept =>
        rw [List.map_cons, (kept_eq_some.mp hkept).2]
        exact ih.cons_cons _
  exact h.sublist hsublist

/-- Like maps are accepted alike, and normalize to the same map. -/
theorem LikeMaps.normalize (h : LikeMaps entries entries') :
    normalizeModelMap check [] entries = .ok result ↔ normalizeModelMap check [] entries' = .ok result := by
  have hmaps : SortedMap.ofEntries (entries.filterMap (kept check)) = SortedMap.ofEntries (entries'.filterMap (kept check)) := by
    refine SortedMap.ofEntries_perm (nodup_filterMap_kept h.distinct) ?_
    rw [← filterMap_kept_map entries, ← filterMap_kept_map entries']
    exact h.perm.filterMap _
  rw [normalizeModelMap_nil_eq_ok, normalizeModelMap_nil_eq_ok, h.accepts, hmaps]

end

/-! ## Prices -/

def withinPriceLimit (price : Option Nat) : Bool := price.all (· ≤ Pricing.maxModelPriceMicroUsdPerMillion)

def ApiModelPriceOverride.isValid (price : ApiModelPriceOverride) : Bool :=
  withinPriceLimit price.inputMicroUsdPerMillion && withinPriceLimit price.cachedInputMicroUsdPerMillion &&
    withinPriceLimit price.cacheWrite5mMicroUsdPerMillion && withinPriceLimit price.cacheWrite1hMicroUsdPerMillion &&
    withinPriceLimit price.outputMicroUsdPerMillion

def checkPriceOverride (model : String) (price : ApiModelPriceOverride) : Except String (Option ApiModelPriceOverride) :=
  if isValidModelId model = false ∨ price.isValid = false then .error "model price override is invalid" else .ok (some price)

def normalizeModelPriceOverrides : List (String × ApiModelPriceOverride) → Except String (List (String × ApiModelPriceOverride)) :=
  normalizeModelMap checkPriceOverride []

theorem stable_checkPriceOverride : Stable checkPriceOverride := by
  intro key price price' h
  unfold checkPriceOverride at h ⊢
  rw [isValidModelId_asciiLower]
  split at h
  case isTrue => exact nomatch h
  case isFalse hvalid =>
    obtain rfl := Option.some.inj (Except.ok.inj h)
    exact if_neg hvalid

/-! ## Reasoning levels -/

def maxModelReasoningLevels : Nat := 64

def maxReasoningEffortLength : Nat := 64

def validReasoningEffort (value : String) : Bool :=
  value ≠ "" && (Bytes.utf8 value).length ≤ maxReasoningEffortLength && !value.toList.any isControl

def reasoningLevelRank (level : String) : Nat :=
  match String.ofList (level.toList.map fun c => if c = '-' then '_' else c) with
  | "none" => 0
  | "minimal" => 1
  | "low" => 2
  | "medium" => 3
  | "high" => 4
  | "xhigh" | "very_high" | "extra_high" => 5
  | "max" => 6
  | "ultra" => 7
  | _ => 8

/-- The order of the levels: by rank, and within a rank as they came. -/
def levelBefore (level level' : String × Nat) : Bool :=
  reasoningLevelRank level.1 < reasoningLevelRank level'.1 ||
    (reasoningLevelRank level.1 = reasoningLevelRank level'.1 && level.2 ≤ level'.2)

def canonicalizeReasoningLevels (levels : List String) : List String :=
  let ordered := keepFirst Prod.fst []
    ((levels.map fun level => asciiLower (trim level)).zipIdx.filter fun level => level.1 ≠ "")
  (ordered.mergeSort levelBefore).map Prod.fst

def checkReasoningLevels (model : String) (levels : List String) : Except String (Option (List String)) :=
  let modelLevels := levels.map fun level => asciiLower (trim level)
  if isValidModelId model = false ∨ levels.length > maxModelReasoningLevels ∨ modelLevels.all validReasoningEffort = false then
    .error "model reasoning allowed levels are invalid"
  else .ok (some (canonicalizeReasoningLevels modelLevels))

def normalizeModelReasoningAllowedLevels : List (String × List String) → Except String (List (String × List String)) :=
  normalizeModelMap checkReasoningLevels []

/-- Levels in their order, each once. -/
structure CanonicalLevels (levels : List String) : Prop where
  spelled : ∀ level ∈ levels, asciiLower (trim level) = level
  nonempty : ∀ level ∈ levels, level ≠ ""
  nodup : levels.Nodup
  ranked : levels.Pairwise fun level level' => reasoningLevelRank level ≤ reasoningLevelRank level'

variable {levels : List String}

theorem mem_canonicalizeReasoningLevels {level : String}
    (h : level ∈ canonicalizeReasoningLevels levels) : level ∈ levels.map (fun level => asciiLower (trim level)) ∧ level ≠ "" := by
  obtain ⟨entry, hentry, rfl⟩ := List.mem_map.mp h
  obtain ⟨hzip, hne⟩ := List.mem_filter.mp ((keepFirst_sublist Prod.fst [] _).subset (List.mem_mergeSort.mp hentry))
  exact ⟨List.fst_mem_of_mem_zipIdx hzip, of_decide_eq_true hne⟩

theorem canonical_canonicalizeReasoningLevels (levels : List String) :
    CanonicalLevels (canonicalizeReasoningLevels levels) where
  spelled level hlevel := by
    obtain ⟨origin, -, rfl⟩ := List.mem_map.mp (mem_canonicalizeReasoningLevels hlevel).1
    rw [trim_asciiLower_trim, asciiLower_idem]
  nonempty level hlevel := (mem_canonicalizeReasoningLevels hlevel).2
  nodup := ((List.mergeSort_perm _ _).map Prod.fst).nodup_iff.mpr (nodup_keepFirst [] _)
  ranked := by
    refine List.pairwise_map.mpr ((List.pairwise_mergeSort ?_ ?_ _).imp fun {level level'} hbefore => ?_)
    · intro a b c
      simp only [levelBefore, Bool.or_eq_true, Bool.and_eq_true, decide_eq_true_eq]
      omega
    · intro a b
      simp only [levelBefore, Bool.or_eq_true, Bool.and_eq_true, decide_eq_true_eq]
      omega
    · simp only [levelBefore, Bool.or_eq_true, Bool.and_eq_true, decide_eq_true_eq] at hbefore
      omega

theorem pairwise_zipIdx
    (h : levels.Pairwise fun level level' => reasoningLevelRank level ≤ reasoningLevelRank level') :
    levels.zipIdx.Pairwise fun level level' => levelBefore level level' = true := by
  rw [List.pairwise_iff_getElem] at h ⊢
  intro i j hi hj hlt
  rw [List.length_zipIdx] at hi hj
  have hrank := h i j hi hj hlt
  rw [List.getElem_zipIdx, List.getElem_zipIdx]
  simp only [levelBefore, Bool.or_eq_true, Bool.and_eq_true, decide_eq_true_eq]
  omega

theorem canonicalizeReasoningLevels_of_canonical (h : CanonicalLevels levels) :
    canonicalizeReasoningLevels levels = levels := by
  have hspelled : (levels.map fun level => asciiLower (trim level)) = levels :=
    (List.map_congr_left h.spelled).trans (List.map_id levels)
  have hfilter : (levels.zipIdx.filter fun level => decide (level.1 ≠ "")) = levels.zipIdx :=
    List.filter_eq_self.mpr fun level hlevel => decide_eq_true (h.nonempty level.1 (List.fst_mem_of_mem_zipIdx hlevel))
  have hfirst : keepFirst Prod.fst [] levels.zipIdx = levels.zipIdx := by
    refine keepFirst_of_nodup ?_ fun _ _ => List.not_mem_nil
    rw [List.zipIdx_map_fst]
    exact h.nodup
  rw [canonicalizeReasoningLevels, hspelled, hfilter, hfirst, List.mergeSort_of_pairwise (pairwise_zipIdx h.ranked),
    List.zipIdx_map_fst]

theorem length_canonicalizeReasoningLevels_le (levels : List String) :
    (canonicalizeReasoningLevels levels).length ≤ levels.length := by
  rw [canonicalizeReasoningLevels, List.length_map, List.length_mergeSort]
  refine (keepFirst_sublist Prod.fst [] _).length_le.trans ((List.length_filter_le _ _).trans ?_)
  rw [List.length_zipIdx, List.length_map]

theorem stable_checkReasoningLevels : Stable checkReasoningLevels := by
  intro key levels levels' h
  unfold checkReasoningLevels at h ⊢
  dsimp only at h ⊢
  rw [isValidModelId_asciiLower]
  split at h
  case isTrue => exact nomatch h
  case isFalse hvalid =>
    obtain rfl := Option.some.inj (Except.ok.inj h)
    obtain ⟨hkey, hvalid⟩ := not_or.mp hvalid
    obtain ⟨hlength, hefforts⟩ := not_or.mp hvalid
    have hcanonical := canonical_canonicalizeReasoningLevels (levels.map fun level => asciiLower (trim level))
    have hspelled : ((canonicalizeReasoningLevels (levels.map fun level => asciiLower (trim level))).map
        fun level => asciiLower (trim level)) = canonicalizeReasoningLevels (levels.map fun level => asciiLower (trim level)) :=
      (List.map_congr_left hcanonical.spelled).trans (List.map_id _)
    rw [hspelled, canonicalizeReasoningLevels_of_canonical hcanonical, if_neg]
    rintro (hother | hlong | hinvalid)
    · exact hkey hother
    · refine hlength (hlong.trans_le ?_)
      exact (length_canonicalizeReasoningLevels_le _).trans (le_of_eq (List.length_map _))
    · refine hefforts (Bool.eq_false_iff.mpr fun hall => ?_)
      refine absurd hinvalid (ne_false_of_eq_true (List.all_eq_true.mpr fun level hlevel => ?_))
      obtain ⟨origin, horigin, rfl⟩ := List.mem_map.mp (mem_canonicalizeReasoningLevels hlevel).1
      obtain ⟨text, htext, rfl⟩ := List.mem_map.mp horigin
      rw [trim_asciiLower_trim, asciiLower_idem]
      exact List.all_eq_true.mp hall _ horigin

/-! ## Service tiers -/

/-- What follows the last slash. -/
def modelLeaf (model : String) : String := trim (.ofList (model.toList.reverse.takeWhile (· ≠ '/')).reverse)

def isOpenaiModel (model : String) : Bool :=
  startsWith model "gpt-" || startsWith model "codex-" ||
    (startsWith model "o" && (model.toList[1]?).any Char.isDigit) ||
    startsWith model "text-" || startsWith model "dall-e"

def modelSupportsFastServiceTier (model : String) : Bool := isOpenaiModel (asciiLower (modelLeaf model))

def checkServiceTier (model : String) (tier : DefaultServiceTier) : Except String (Option DefaultServiceTier) :=
  if isValidModelId model = false then .error "model service tier override has an invalid model id"
  else if modelSupportsFastServiceTier model = true then .ok (some tier)
  else .ok none

def normalizeModelServiceTierOverrides :
    List (String × DefaultServiceTier) → Except String (List (String × DefaultServiceTier)) :=
  normalizeModelMap checkServiceTier []

theorem asciiLower_modelLeaf (model : String) : asciiLower (modelLeaf (asciiLower model)) = asciiLower (modelLeaf model) := by
  have hslash : ∀ c : Char, decide (c.toLower ≠ '/') = decide (c ≠ '/') := by
    intro c
    rcases toNat_toLower c with h | ⟨hlow, hhigh, h⟩
    · rw [h]
    · have hc : c ≠ '/' := by rintro rfl; exact absurd hlow (by decide)
      have hlower : c.toLower ≠ '/' := by
        intro heq
        rw [heq] at h
        have : ('/' : Char).toNat = 47 := rfl
        omega
      rw [decide_eq_true hc, decide_eq_true hlower]
  have hleaf : modelLeaf (asciiLower model) = asciiLower (modelLeaf model) := by
    rw [modelLeaf, modelLeaf, ← trim_asciiLower]
    refine congrArg trim (congrArg String.ofList ?_)
    rw [asciiLower, String.toList_ofList, String.toList_ofList, ← List.map_reverse, List.takeWhile_map, ← List.map_reverse]
    exact congrArg (fun p => ((model.toList.reverse.takeWhile p).reverse).map Char.toLower) (funext hslash)
  rw [hleaf, asciiLower_idem]

theorem stable_checkServiceTier : Stable checkServiceTier := by
  intro key tier tier' h
  unfold checkServiceTier modelSupportsFastServiceTier at h ⊢
  rw [isValidModelId_asciiLower, asciiLower_modelLeaf]
  split at h
  case isTrue => exact nomatch h
  case isFalse hvalid =>
    rw [if_neg hvalid]
    split at h
    case isTrue hfast =>
      obtain rfl := Option.some.inj (Except.ok.inj h)
      exact if_pos hfast
    case isFalse => exact nomatch Except.ok.inj h

end Zenith.Presets
