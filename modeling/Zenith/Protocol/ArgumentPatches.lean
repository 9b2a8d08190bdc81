import Mathlib
import Zenith.Lib.JsonSize
import Zenith.Protocol.Gemini

/-!
# The size of patched arguments

A patch adds its value, one container for each segment of its path, and the `null`s with which it fills
up arrays. Every segment and every value stands in the bytes of the patch, but the `null`s do not: an
index fills an array up however large it is (`index_inflates`). Without them the arguments grow no more
than by the bytes of the patches (`nodes_applyPartialArgs`).
-/

namespace Zenith.Protocol

open Zenith.Json Zenith.Tables Zenith.Text

/-! ## Paths -/

variable {segments : List JsonPathSegment}

theorem length_of_map_cons {found : Option (List JsonPathSegment)} {segment : JsonPathSegment}
    {n : Nat} (h : found.map (segment :: ·) = some segments)
    (hfound : ∀ {tail}, found = some tail → tail.length ≤ n) : segments.length ≤ n + 1 := by
  obtain ⟨tail, htail, rfl⟩ := Option.map_eq_some_iff.mp h
  exact Nat.add_le_add_right (hfound htail) 1

/-- Every segment takes a character. -/
theorem length_parseSegments {fuel : Nat} {rest : List Char}
    (h : parseSegments fuel rest = some segments) : segments.length ≤ rest.length := by
  fun_induction parseSegments fuel rest generalizing segments with
  | case1 =>
    obtain rfl := Option.some.inj h
    exact le_rfl
  | case4 =>
    rename_i ih
    refine (length_of_map_cons h ih).trans (Nat.succ_le_succ ?_)
    rw [List.length_drop]
    exact Nat.sub_le _ _
  | case5 =>
    rename_i hdrop ih
    have hlen := congrArg List.length hdrop
    have hsegments := length_of_map_cons h ih
    simp only [List.length_drop, List.length_cons] at hlen ⊢
    omega
  | case7 =>
    rename_i hdrop _ ih
    have hlen := congrArg List.length hdrop
    have hsegments := length_of_map_cons h ih
    simp only [List.length_drop, List.length_cons] at hlen ⊢
    omega
  | case2 | case3 | case6 | case8 | case9 => exact nomatch h

theorem length_toList_le_utf8 (s : String) : s.toList.length ≤ (Bytes.utf8 s).length := by
  rw [Bytes.utf8]
  induction s.toList with
  | nil => exact le_rfl
  | cons c chars ih =>
    rw [List.flatMap_cons, List.length_append, List.length_cons, String.length_utf8EncodeChar,
      Nat.add_comm]
    exact Nat.add_le_add (Char.utf8Size_pos c) ih

theorem length_parseJsonPath {path : String}
    (h : parseJsonPath path = some segments) : segments.length ≤ (Bytes.utf8 path).length := by
  refine le_trans ?_ (length_toList_le_utf8 path)
  unfold parseJsonPath at h
  split at h
  case h_1 rest hpath =>
    rw [hpath, List.length_cons]
    exact Nat.le_succ_of_le (length_parseSegments h)
  case h_2 => exact nomatch h

/-! ## Setting a value -/

/-- The `null`s with which a path fills up arrays. -/
def pathPadding : List JsonPathSegment → Json → Nat
  | [], _ => 0
  | .key key :: segments, current => pathPadding segments ((current.get key).getD (emptyAt segments))
  | .index index :: segments, current =>
    let items := current.asArray.getD []
    let old := items[index]?.getD .null
    index - items.length + pathPadding segments (if old.isNull then emptyAt segments else old)

/-- The indices of a path. -/
def indexSum (segments : List JsonPathSegment) : Nat :=
  (segments.map fun
    | .key _ => 0
    | .index index => index).sum

theorem pathPadding_le (segments : List JsonPathSegment) (current : Json) :
    pathPadding segments current ≤ indexSum segments := by
  induction segments generalizing current with
  | nil => exact le_rfl
  | cons segment segments ih =>
    cases segment with
    | key key => exact (ih _).trans (Nat.le_add_left _ _)
    | index index => exact Nat.add_le_add (Nat.sub_le _ _) (ih _)

theorem nodes_emptyAt (segments : List JsonPathSegment) : (emptyAt segments).nodes = 1 := by
  unfold emptyAt
  split <;> rfl

theorem ordered_emptyAt (segments : List JsonPathSegment) : (emptyAt segments).Ordered := by
  unfold emptyAt
  split
  · exact .array nofun
  · exact .object .nil nofun

section
variable {value : Json} {segments : List JsonPathSegment}

/-- An array that is long enough for an index. -/
def filled (items : List Json) (index : Nat) : List Json :=
  items ++ List.replicate (index + 1 - items.length) .null

theorem getElem?_filled (items : List Json) (index : Nat) :
    (filled items index)[index]? = some (items[index]?.getD .null) := by
  unfold filled
  by_cases h : index < items.length
  · rw [List.getElem?_append_left h, List.getElem?_eq_getElem h]
    rfl
  · rw [List.getElem?_append_right (not_lt.mp h), List.getElem?_eq_none (not_lt.mp h),
      List.getElem?_replicate, if_pos (by omega)]
    rfl

variable {current result : Json}

theorem setJsonPathSegments_key {key : String}
    (h : setJsonPathSegments value (.key key :: segments) current = .ok result) :
    ∃ fields child, current = .object fields ∧ result = .object (Fields.insert fields key child) ∧
      setJsonPathSegments value segments ((Fields.get fields key).getD (emptyAt segments)) =
        .ok child := by
  obtain ⟨fields, hfields, hset⟩ := bind_eq_ok.mp h
  obtain ⟨child, hchild, hresult⟩ := bind_eq_ok.mp hset
  rw [okOr_eq_ok] at hfields
  cases current with
  | object _ =>
    obtain rfl := Option.some.inj hfields
    exact ⟨_, child, rfl, (Except.ok.inj hresult).symm, hchild⟩
  | _ => exact nomatch hfields

theorem setJsonPathSegments_index {index : Nat}
    (h : setJsonPathSegments value (.index index :: segments) current = .ok result) :
    ∃ items child, current = .array items ∧ result = .array ((filled items index).set index child) ∧
      setJsonPathSegments value segments
        (if (items[index]?.getD .null).isNull then emptyAt segments else items[index]?.getD .null) =
        .ok child := by
  obtain ⟨items, hitems, hset⟩ := bind_eq_ok.mp h
  obtain ⟨child, hchild, hresult⟩ := bind_eq_ok.mp hset
  rw [okOr_eq_ok] at hitems
  cases current with
  | array items' =>
    obtain rfl : items' = items := Option.some.inj hitems
    have hold := getElem?_filled items' index
    unfold filled at hold
    rw [hold] at hchild
    exact ⟨items', child, rfl, (Except.ok.inj hresult).symm, hchild⟩
  | _ => exact nomatch hitems

/-- One container for each segment, the value, and the `null`s. -/
theorem nodes_setJsonPathSegments (hcurrent : current.Ordered)
    (h : setJsonPathSegments value segments current = .ok result) :
    result.nodes ≤ current.nodes + value.nodes + segments.length + pathPadding segments current := by
  induction segments generalizing current result with
  | nil =>
    obtain rfl := Except.ok.inj h
    rw [Nat.add_comm current.nodes, Nat.add_assoc, Nat.add_assoc]
    exact Nat.le_add_right _ _
  | cons segment segments ih =>
    cases segment with
    | key key =>
      obtain ⟨fields, child, rfl, rfl, hchild⟩ := setJsonPathSegments_key h
      have hinsert : fieldNodes (Fields.insert fields key child) + nodesAt fields key =
          fieldNodes fields + child.nodes := by
        cases hcurrent with
        | object hkeys => exact fieldNodes_insert hkeys child
      have hgrown : child.nodes ≤ nodesAt fields key + 1 + value.nodes + segments.length +
          pathPadding segments ((Fields.get fields key).getD (emptyAt segments)) := by
        cases hold : Fields.get fields key with
        | none =>
          rw [hold] at hchild
          have hnodes := ih (ordered_emptyAt segments) hchild
          rw [nodes_emptyAt] at hnodes
          rw [nodesAt, hold]
          simpa using hnodes
        | some old =>
          rw [hold] at hchild
          have hnodes := ih (hcurrent.get hold) hchild
          rw [nodesAt, hold]
          simp only [Option.map_some, Option.getD_some] at hnodes ⊢
          omega
      simp only [pathPadding, nodes, Json.get, List.length_cons]
      omega
    | index index =>
      obtain ⟨items, child, rfl, rfl, hchild⟩ := setJsonPathSegments_index h
      have hset := itemNodes_set (getElem?_filled items index) child
      have hitems : itemNodes (filled items index) = itemNodes items + (index + 1 - items.length) := by
        rw [filled, itemNodes_append, itemNodes_replicate_null]
      have hgrown : child.nodes ≤ (items[index]?.getD .null).nodes + value.nodes + segments.length +
          pathPadding segments
            (if (items[index]?.getD .null).isNull then emptyAt segments
              else items[index]?.getD .null) := by
        split at hchild
        case isTrue hnull =>
          have hnodes := ih (ordered_emptyAt segments) hchild
          rw [nodes_emptyAt] at hnodes
          have hone := one_le_nodes (items[index]?.getD .null)
          rw [if_pos hnull]
          omega
        case isFalse hsome =>
          rw [if_neg hsome]
          refine ih ?_ hchild
          cases hold : items[index]? with
          | none => exact .null
          | some old =>
            cases hcurrent with
            | array hitems => exact hitems old (List.mem_of_getElem? hold)
      have hpadding : pathPadding (.index index :: segments) (.array items) =
          index - items.length + pathPadding segments
            (if (items[index]?.getD .null).isNull then emptyAt segments
              else items[index]?.getD .null) := rfl
      rw [hpadding]
      simp only [nodes, List.length_cons]
      omega

theorem ordered_setJsonPathSegments (hvalue : value.Ordered)
    (hcurrent : current.Ordered) (h : setJsonPathSegments value segments current = .ok result) :
    result.Ordered := by
  induction segments generalizing current result with
  | nil =>
    obtain rfl := Except.ok.inj h
    exact hvalue
  | cons segment segments ih =>
    cases segment with
    | key key =>
      obtain ⟨fields, child, rfl, rfl, hchild⟩ := setJsonPathSegments_key h
      refine hcurrent.insert (ih ?_ hchild)
      cases hold : Fields.get fields key with
      | none => exact ordered_emptyAt segments
      | some old => exact hcurrent.get hold
    | index index =>
      obtain ⟨items, child, rfl, rfl, hchild⟩ := setJsonPathSegments_index h
      cases hcurrent with
      | array hitems =>
        have hold : (items[index]?.getD .null).Ordered := by
          cases hold : items[index]? with
          | none => exact .null
          | some old => exact hitems old (List.mem_of_getElem? hold)
        have hordered : child.Ordered := by
          refine ih ?_ hchild
          split
          · exact ordered_emptyAt segments
          · exact hold
        refine .array fun item hitem => ?_
        rcases List.mem_or_eq_of_mem_set hitem with hitem | rfl
        · rcases List.mem_append.mp hitem with hitem | hitem
          · exact hitems item hitem
          · rw [(List.mem_replicate.mp hitem).2]
            exact .null
        · exact hordered

end

/-! ## Patches -/

section
variable {lib : Libraries}

/-- The value of a patch, if it sets one, and the path to it. -/
def patchPath (lib : Libraries) (patch : Json) : Option (List JsonPathSegment) :=
  ((patch.asObject.bind (partialArgValue lib)).filter fun value => value.asStr ≠ some "").bind fun _ =>
    ((patch.get "jsonPath").bind Json.asStr).bind parseJsonPath

/-- The `null`s of one patch. -/
def patchPadding (lib : Libraries) (target patch : Json) : Nat :=
  ((patchPath lib patch).map fun segments => pathPadding segments target).getD 0

/-- The `null`s of patches, each on the arguments that those before it leave. -/
def padding (lib : Libraries) : Json → List Json → Nat
  | _, [] => 0
  | target, patch :: patches =>
    patchPadding lib target patch +
      match applyPatch lib target patch with
      | .ok target => padding lib target patches
      | .error _ => 0

/-- The indices of the paths of patches. -/
def patchIndices (lib : Libraries) (patches : List Json) : Nat :=
  (patches.map fun patch => ((patchPath lib patch).map indexSum).getD 0).sum

theorem padding_le (target : Json) (patches : List Json) :
    padding lib target patches ≤ patchIndices lib patches := by
  induction patches generalizing target with
  | nil => exact le_rfl
  | cons patch patches ih =>
    rw [padding, patchIndices, List.map_cons, List.sum_cons]
    refine Nat.add_le_add ?_ ?_
    · rw [patchPadding]
      cases patchPath lib patch with
      | none => exact le_rfl
      | some segments => exact pathPadding_le segments target
    · split
      · exact ih _
      · exact Nat.zero_le _

variable {target patch result : Json}

/-- What a patch does. -/
theorem applyPatch_ok (h : applyPatch lib target patch = .ok result) :
    result = target ∨
    ∃ fields path value segments, patch = .object fields ∧
      Fields.get fields "jsonPath" = some (.string path) ∧ partialArgValue lib fields = some value ∧
      parseJsonPath path = some segments ∧ segments ≠ [] ∧ patchPath lib patch = some segments ∧
      setJsonPathSegments value segments target = .ok result := by
  obtain ⟨fields, hfields, hpatched⟩ := bind_eq_ok.mp h
  obtain ⟨path, hpath, hset⟩ := bind_eq_ok.mp hpatched
  rw [okOr_eq_ok] at hfields hpath
  split at hset
  case h_1 => exact .inl (Except.ok.inj hset).symm
  case h_2 value hvalue =>
    split at hset
    case isTrue => exact .inl (Except.ok.inj hset).symm
    case isFalse hsome =>
      obtain ⟨segments, hsegments, hresult⟩ := bind_eq_ok.mp hset
      rw [okOr_eq_ok] at hsegments
      split at hresult
      case isTrue => exact nomatch hresult
      case isFalse hne =>
        have hget : patch.get "jsonPath" = some (.string path) := by
          cases hfield : Fields.get fields "jsonPath" with
          | none => exact nomatch hfield ▸ hpath
          | some value =>
            rw [hfield] at hpath
            cases value with
            | string s =>
              obtain rfl := Option.some.inj hpath
              rw [Json.get_of_asObject hfields, hfield]
            | _ => exact nomatch hpath
        refine .inr ⟨fields, path, value, segments, ?_, ?_, hvalue, hsegments, hne, ?_, hresult⟩
        · cases patch with
          | object _ => exact congrArg _ (Option.some.inj hfields)
          | _ => exact nomatch hfields
        · exact (Json.get_of_asObject hfields _).symm.trans hget
        · have hkept : (some value).filter (fun value => decide (value.asStr ≠ some "")) = some value := by
            simp [hsome]
          rw [patchPath, hfields, Option.bind_some, hvalue, hkept, Option.bind_some, hget]
          exact hsegments

variable {fields : Json.Fields} {value : Json}

/-- The value of a patch stands in one of its fields. -/
theorem partialArgValue_some (h : partialArgValue lib fields = some value) :
    ∃ key field, key ≠ "jsonPath" ∧ Fields.get fields key = some field ∧
      (value = field ∨ ∃ text, field = .string text ∧ lib.serde.fromStr text = some value) := by
  unfold partialArgValue at h
  dsimp only at h
  split at h
  case h_1 => exact nomatch h
  case h_2 key hkey =>
    have hmem := List.mem_of_find?_eq_some hkey
    have hsome := List.find?_some hkey
    obtain ⟨field, hfield⟩ := Option.isSome_iff_exists.mp hsome
    have hne : key ≠ "jsonPath" := by
      rintro rfl
      simp at hmem
    refine ⟨key, field, hne, hfield, ?_⟩
    rw [hfield] at h
    split at h
    case h_1 text htext =>
      refine .inr ⟨text, ?_, h⟩
      cases field with
      | string s => exact congrArg _ (Option.some.inj htext)
      | _ => exact nomatch htext
    case h_2 => exact .inl (Option.some.inj h).symm

theorem isObject_applyPatch (htarget : target.isObject = true)
    (h : applyPatch lib target patch = .ok result) : result.isObject = true := by
  rcases applyPatch_ok h with rfl | ⟨_, _, _, segments, -, -, -, -, hne, -, hset⟩
  · exact htarget
  · cases segments with
    | nil => exact absurd rfl hne
    | cons segment segments =>
      cases segment with
      | key key =>
        obtain ⟨_, _, -, rfl, -⟩ := setJsonPathSegments_key hset
        rfl
      | index index =>
        obtain ⟨_, _, rfl, -⟩ := setJsonPathSegments_index hset
        exact nomatch htarget

theorem ordered_partialArgValue (hserde : lib.serde.Sized)
    (hfields : (Json.object fields).Ordered) (h : partialArgValue lib fields = some value) :
    value.Ordered := by
  obtain ⟨key, field, -, hfield, rfl | ⟨text, -, hparse⟩⟩ := partialArgValue_some h
  · exact hfields.get hfield
  · exact hserde.ordered _ _ hparse

theorem ordered_applyPatch (hserde : lib.serde.Sized)
    (htarget : target.Ordered) (hpatch : patch.Ordered)
    (h : applyPatch lib target patch = .ok result) : result.Ordered := by
  rcases applyPatch_ok h with rfl | ⟨fields, _, value, _, rfl, -, hvalue, -, -, -, hset⟩
  · exact htarget
  · exact ordered_setJsonPathSegments (ordered_partialArgValue hserde hpatch hvalue) htarget hset

/-- A value takes no more nodes than the bytes of its field. -/
theorem nodes_partialArgValue (hserde : lib.serde.Sized) {path : String}
    (hpath : Fields.get fields "jsonPath" = some (.string path))
    (h : partialArgValue lib fields = some value) :
    value.nodes + (Bytes.utf8 path).length ≤ fieldSizes fields := by
  obtain ⟨key, field, hne, hfield, hvalue⟩ := partialArgValue_some h
  have hsizes := size_add_size_le hne hfield hpath
  have hnodes : value.nodes ≤ field.size := by
    rcases hvalue with rfl | ⟨text, rfl, hparse⟩
    · exact nodes_le_size value
    · exact (hserde.nodes_le _ _ hparse).trans (Nat.le_add_left _ _)
  have hstring : (Json.string path).size = 1 + (Bytes.utf8 path).length := rfl
  omega

theorem nodes_applyPatch (hserde : lib.serde.Sized)
    (htarget : target.Ordered) (h : applyPatch lib target patch = .ok result) :
    result.nodes ≤ target.nodes + patch.size + patchPadding lib target patch := by
  rcases applyPatch_ok h with rfl | ⟨fields, path, value, segments, rfl, hpath, hvalue, hsegments, -, hfound, hset⟩
  · exact (Nat.le_add_right _ _).trans (Nat.le_add_right _ _)
  · have hnodes := nodes_setJsonPathSegments htarget hset
    have hvalue := nodes_partialArgValue hserde hpath hvalue
    have hsegments := length_parseJsonPath hsegments
    have hsize : (Json.object fields).size = 1 + fieldSizes fields := rfl
    rw [patchPadding, hfound, Option.map_some, Option.getD_some]
    omega

/-- Patches on objects give an object. -/
theorem isObject_applyPartialArgs {target partialArgs result : Json} (htarget : target.isObject = true)
    (h : applyPartialArgs lib target partialArgs = .ok result) : result.isObject = true := by
  obtain ⟨patches, -, hfold⟩ := bind_eq_ok.mp h
  clear h
  induction patches generalizing target with
  | nil =>
    obtain rfl := Except.ok.inj hfold
    exact htarget
  | cons patch patches ih =>
    rw [List.foldlM_cons] at hfold
    obtain ⟨next, hnext, hrest⟩ := bind_eq_ok.mp hfold
    exact ih (isObject_applyPatch htarget hnext) hrest

theorem nodes_patches (hserde : lib.serde.Sized) {target result : Json} {patches : List Json}
    (htarget : target.Ordered) (hpatches : ∀ patch ∈ patches, patch.Ordered)
    (h : patches.foldlM (applyPatch lib) target = .ok result) :
    result.nodes ≤ target.nodes + itemSizes patches + padding lib target patches := by
  induction patches generalizing target with
  | nil =>
    obtain rfl := Except.ok.inj h
    exact le_rfl
  | cons patch patches ih =>
    rw [List.foldlM_cons] at h
    obtain ⟨next, hnext, hrest⟩ := bind_eq_ok.mp h
    obtain ⟨hpatch, hpatches⟩ := List.forall_mem_cons.mp hpatches
    have hfirst := nodes_applyPatch hserde htarget hnext
    have hothers := ih (ordered_applyPatch hserde htarget hpatch hnext) hpatches hrest
    rw [padding, hnext, itemSizes]
    dsimp only
    omega

/-- The arguments grow by the bytes of the patches and by the `null`s at most, and those come from the
indices. -/
theorem nodes_applyPartialArgs (lib : Libraries) (hserde : lib.serde.Sized)
    {target result : Json} {patches : List Json} (htarget : target.Ordered)
    (hpatches : (Json.array patches).Ordered)
    (h : applyPartialArgs lib target (.array patches) = .ok result) :
    result.nodes ≤ target.nodes + (Bytes.utf8 (lib.serde.toString (.array patches))).length +
      padding lib target patches ∧
    padding lib target patches ≤ patchIndices lib patches := by
  refine ⟨?_, padding_le target patches⟩
  have hordered : ∀ patch ∈ patches, patch.Ordered := by
    cases hpatches with
    | array hitems => exact hitems
  have hnodes := nodes_patches hserde htarget hordered h
  have hbytes := hserde.size_le (.array patches)
  have hsize : (Json.array patches).size = 1 + itemSizes patches := rfl
  omega

end

/-! ## Samples -/

/-- Libraries for examples that read the given texts. The printer is `Json.print`: the blanks stand only
after numbers without a text. -/
def sizedLibraries (texts : List (String × Json)) : Libraries :=
  { Libraries.ofTexts texts with serde := { Serde.ofTexts texts with
      toString := fun value => value.print ++
        String.ofList (List.replicate (value.size - (Bytes.utf8 value.print).length) ' ') } }

theorem sized_sizedLibraries {texts : List (String × Json)}
    (htexts : ∀ entry ∈ texts, entry.2.Ordered ∧ entry.2.nodes ≤ (Bytes.utf8 entry.1).length) :
    (sizedLibraries texts).serde.Sized := by
  have hread : ∀ bytes value, (sizedLibraries texts).serde.fromSlice bytes = some value →
      value.Ordered ∧ value.nodes ≤ bytes.length := by
    intro bytes value h
    obtain ⟨entry, hfound, rfl⟩ := Option.map_eq_some_iff.mp h
    have hbytes : Bytes.utf8 entry.1 = bytes := by simpa using List.find?_some hfound
    exact hbytes ▸ htexts entry (List.mem_of_find?_eq_some hfound)
  refine ⟨fun bytes value h => (hread bytes value h).1, fun bytes value h => (hread bytes value h).2,
    fun value => ?_⟩
  have hspaces := length_toList_le_utf8
    (String.ofList (List.replicate (value.size - (Bytes.utf8 value.print).length) ' '))
  rw [String.toList_ofList, List.length_replicate] at hspaces
  have happend : (sizedLibraries texts).serde.toString value = value.print ++
    String.ofList (List.replicate (value.size - (Bytes.utf8 value.print).length) ' ') := rfl
  rw [happend, Bytes.utf8, String.toList_append, List.flatMap_append, List.length_append]
  exact Nat.le_add_of_sub_le hspaces |>.trans (le_of_eq (Nat.add_comm _ _))

/-- `[true]` at the third place of a new array. -/
def truePatch : Json :=
  .object [("jsonPath", .string "$.a[2]"), ("jsonValue", .string "[true]")]

def trueLibraries : Libraries := sizedLibraries [("[true]", .array [.bool true])]

theorem sized_trueLibraries : trueLibraries.serde.Sized :=
  sized_sizedLibraries fun _ hentry => List.mem_singleton.mp hentry ▸
    ⟨.array fun _ hitem => List.mem_singleton.mp hitem ▸ .bool true, by decide +kernel⟩

theorem ordered_truePatch : truePatch.Ordered := by
  refine .object (by decide) fun entry hentry => ?_
  rcases List.mem_pair.mp hentry with rfl | rfl
  · exact .string _
  · exact .string _

theorem nodes_applyPartialArgs_true :
    (Json.object [("a", .array [.null, .null, .array [.bool true]])]).nodes ≤
      (Json.object []).nodes +
        (Bytes.utf8 (trueLibraries.serde.toString (.array [truePatch]))).length +
        padding trueLibraries (.object []) [truePatch] ∧
    padding trueLibraries (.object []) [truePatch] ≤ patchIndices trueLibraries [truePatch] :=
  nodes_applyPartialArgs trueLibraries sized_trueLibraries (.object .nil nofun)
    (.array fun _ hitem => List.mem_singleton.mp hitem ▸ ordered_truePatch) (by decide +kernel)

/-- One index makes more values than there are bytes in the patch. -/
theorem index_inflates :
    let patches := Json.array [.ofFields [("jsonPath", .string "$.a[100]"), ("numberValue", .ofNat 1)]]
    ∃ result, applyPartialArgs (.ofTexts []) (.ofFields []) patches = .ok result ∧
      (Json.ofFields []).nodes + (Bytes.utf8 ((Libraries.ofTexts []).serde.toString patches)).length <
        result.nodes := by
  refine ⟨.ofFields [("a", .array (List.replicate 100 .null ++ [.ofNat 1]))], by decide +kernel, ?_⟩
  have hprint : ∀ value, (Libraries.ofTexts []).serde.toString value = value.print := fun _ => rfl
  rw [hprint, Json.utf8_print]
  decide +kernel

end Zenith.Protocol
