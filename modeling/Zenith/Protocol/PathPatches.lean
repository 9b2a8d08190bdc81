import Mathlib
import Zenith.Protocol.ArgumentPatches

/-!
# What patches write

The laws of `setJsonPath`: a value that was set is read at its path, paths that neither lead to it nor go on from it
read as before, and setting a value again forgets the one before. A list of patches therefore writes to every path
what its last patch does (`patches_write_last`). `PathText` is the grammar of the paths.
-/

namespace Zenith.Protocol

open Zenith.Json Zenith.Tables Zenith.Text

/-! ## Reading -/

def readPath : List JsonPathSegment → Json → Option Json
  | [], value => some value
  | .key key :: segments, value => (value.get key).bind (readPath segments)
  | .index index :: segments, value => (value.asArray.bind (·[index]?)).bind (readPath segments)

/-- Neither path is a prefix of the other. -/
def Unrelated (path path' : List JsonPathSegment) : Prop := ¬path <+: path' ∧ ¬path' <+: path

instance (path path' : List JsonPathSegment) : Decidable (Unrelated path path') :=
  inferInstanceAs (Decidable (_ ∧ _))

theorem unrelated_cons {segment : JsonPathSegment} {path path' : List JsonPathSegment} :
    Unrelated (segment :: path) (segment :: path') ↔ Unrelated path path' := by
  unfold Unrelated
  rw [List.prefix_cons_inj, List.prefix_cons_inj]

section
variable {value current result : Json} {segments : List JsonPathSegment}

theorem filled_of_lt {items : List Json} {index : Nat} (h : index < items.length) : filled items index = items := by
  rw [filled, Nat.sub_eq_zero_of_le h]
  exact List.append_nil items

theorem lt_length_filled (items : List Json) (index : Nat) : index < (filled items index).length := by
  rw [filled, List.length_append, List.length_replicate]
  exact lt_of_lt_of_le (Nat.lt_succ_self index) (Nat.sub_le_iff_le_add'.mp le_rfl)

theorem getElem?_set_filled (items : List Json) (index : Nat) (child : Json) :
    ((filled items index).set index child)[index]? = some child :=
  List.getElem?_set_self (lt_length_filled items index)

/-- A set value is read at its path, with all that is in it. -/
theorem readPath_append_set (h : setJsonPathSegments value segments current = .ok result) (rest : List JsonPathSegment) :
    readPath (segments ++ rest) result = readPath rest value := by
  induction segments generalizing current result with
  | nil =>
    obtain rfl := Except.ok.inj h
    rfl
  | cons segment segments ih =>
    cases segment with
    | key key =>
      obtain ⟨fields, child, rfl, rfl, hchild⟩ := setJsonPathSegments_key h
      rw [List.cons_append, readPath, Json.get, Fields.get_insert, if_pos rfl, Option.bind_some]
      exact ih hchild
    | index index =>
      obtain ⟨items, child, rfl, rfl, hchild⟩ := setJsonPathSegments_index h
      rw [List.cons_append, readPath, Json.asArray, Option.bind_some, getElem?_set_filled, Option.bind_some]
      exact ih hchild

theorem readPath_null {path : List JsonPathSegment} (h : (readPath path .null).isSome = true) : path = [] := by
  cases path with
  | nil => rfl
  | cons segment path => cases segment <;> exact nomatch h

theorem isNull_eq {value : Json} (h : value.isNull = true) : value = .null := by
  cases value with
  | null => rfl
  | _ => exact nomatch h

/-- Other paths read as before. -/
theorem readPath_set_unrelated (h : setJsonPathSegments value segments current = .ok result)
    {path : List JsonPathSegment} (hpath : Unrelated segments path) {old : Json} (hread : readPath path current = some old) :
    readPath path result = some old := by
  induction segments generalizing path current result with
  | nil => exact absurd (List.nil_prefix) hpath.1
  | cons segment segments ih =>
    cases path with
    | nil => exact absurd (List.nil_prefix) hpath.2
    | cons segment' path =>
      cases segment with
      | key key =>
        obtain ⟨fields, child, rfl, rfl, hchild⟩ := setJsonPathSegments_key h
        cases segment' with
        | index index => cases hread
        | key key' =>
          obtain ⟨inner, hinner, hread⟩ := Option.bind_eq_some_iff.mp hread
          have hfield : Fields.get fields key' = some inner := hinner
          rw [readPath, Json.get, Fields.get_insert]
          by_cases hkey : key' = key
          · subst hkey
            rw [hfield] at hchild
            rw [if_pos rfl, Option.bind_some]
            exact ih hchild (unrelated_cons.mp hpath) hread
          · rw [if_neg hkey, hfield, Option.bind_some]
            exact hread
      | index index =>
        obtain ⟨items, child, rfl, rfl, hchild⟩ := setJsonPathSegments_index h
        cases segment' with
        | key key => cases hread
        | index index' =>
          obtain ⟨inner, hinner, hinside⟩ := Option.bind_eq_some_iff.mp hread
          have hitem : items[index']? = some inner := hinner
          by_cases hindex : index = index'
          · subst hindex
            have hpath := unrelated_cons.mp hpath
            have hnull : inner.isNull = false := by
              refine Bool.eq_false_of_not_eq_true fun hnull => hpath.2 ?_
              rw [isNull_eq hnull] at hinside
              rw [readPath_null (Option.isSome_of_eq_some hinside)]
              exact List.nil_prefix
            rw [hitem, Option.getD_some, hnull, if_neg Bool.false_ne_true] at hchild
            rw [readPath, Json.asArray, Option.bind_some, getElem?_set_filled, Option.bind_some]
            exact ih hchild hpath hinside
          · have hlength := (List.getElem?_eq_some_iff.mp hitem).1
            rw [readPath, Json.asArray, Option.bind_some, List.getElem?_set_ne hindex, filled,
              List.getElem?_append_left hlength, hitem, Option.bind_some]
            exact hinside

/-! ## Setting again -/

theorem insert_same_key (fields : Json.Fields) (key : String) (value value' : Json) :
    Fields.insert (Fields.insert fields key value) key value' = Fields.insert fields key value' := by
  induction fields with
  | nil => exact if_pos rfl
  | cons entry fields ih =>
    obtain ⟨key', old⟩ := entry
    rw [Fields.insert]
    conv_rhs => rw [Fields.insert]
    by_cases hkey : key = key'
    · rw [if_pos hkey, if_pos hkey, Fields.insert, if_pos rfl]
    · rw [if_neg hkey, if_neg hkey]
      by_cases hlt : key < key'
      · rw [if_pos hlt, if_pos hlt, Fields.insert, if_pos rfl]
      · rw [if_neg hlt, if_neg hlt, Fields.insert, if_neg hkey, if_neg hlt, ih]

theorem isNull_set {segment : JsonPathSegment} (h : setJsonPathSegments value (segment :: segments) current = .ok result) :
    result.isNull = false := by
  cases segment with
  | key key =>
    obtain ⟨_, _, -, rfl, -⟩ := setJsonPathSegments_key h
    rfl
  | index index =>
    obtain ⟨_, _, -, rfl, -⟩ := setJsonPathSegments_index h
    rfl

theorem setJsonPathSegments_object (value : Json) (key : String) (segments : List JsonPathSegment) (fields : Json.Fields) :
    setJsonPathSegments value (.key key :: segments) (.object fields) =
      (setJsonPathSegments value segments ((Fields.get fields key).getD (emptyAt segments))).map
        fun child => .object (Fields.insert fields key child) := by
  rfl

theorem setJsonPathSegments_array (value : Json) (index : Nat) (segments : List JsonPathSegment) (items : List Json) :
    setJsonPathSegments value (.index index :: segments) (.array items) =
      (setJsonPathSegments value segments
        (if (items[index]?.getD .null).isNull then emptyAt segments else items[index]?.getD .null)).map
        fun child => .array ((filled items index).set index child) := by
  have hold := getElem?_filled items index
  show ((setJsonPathSegments value segments (if ((filled items index)[index]?.getD .null).isNull then emptyAt segments
    else (filled items index)[index]?.getD .null)).map fun child => Json.array ((filled items index).set index child)) = _
  rw [hold]
  rfl

/-- Setting a value forgets the value that was set before. -/
theorem set_set (h : setJsonPathSegments value segments current = .ok result) (value' : Json) :
    setJsonPathSegments value' segments result = setJsonPathSegments value' segments current := by
  induction segments generalizing current result with
  | nil => rfl
  | cons segment segments ih =>
    cases segment with
    | key key =>
      obtain ⟨fields, child, rfl, rfl, hchild⟩ := setJsonPathSegments_key h
      rw [setJsonPathSegments_object, setJsonPathSegments_object, Fields.get_insert, if_pos rfl, Option.getD_some,
        ih hchild]
      simp only [insert_same_key]
    | index index =>
      obtain ⟨items, child, rfl, rfl, hchild⟩ := setJsonPathSegments_index h
      have hagain : setJsonPathSegments value' segments (if child.isNull then emptyAt segments else child) =
          setJsonPathSegments value' segments child := by
        cases segments with
        | nil => rfl
        | cons segment segments => rw [isNull_set hchild, if_neg Bool.false_ne_true]
      have hfilled : filled ((filled items index).set index child) index = (filled items index).set index child :=
        filled_of_lt (by rw [List.length_set]; exact lt_length_filled items index)
      rw [setJsonPathSegments_array, setJsonPathSegments_array, getElem?_set_filled, Option.getD_some, hagain, ih hchild,
        hfilled]
      simp only [List.set_set]

end

/-! ## The grammar of paths -/

def decimal (digits : List Char) : Nat := digits.foldl (fun n digit => 10 * n + (digit.toNat - '0'.toNat)) 0

/-- The text after the `$` of a path, with its segments. -/
inductive PathText : List Char → List JsonPathSegment → Prop
  | nil : PathText [] []
  | name {name rest : List Char} {segments : List JsonPathSegment} : name ≠ [] → (∀ c ∈ name, isKeyChar c = true) →
      PathText rest segments → PathText ('.' :: (name ++ rest)) (.key (String.ofList name) :: segments)
  | quoted {key rest : List Char} {segments : List JsonPathSegment} : '"' ∉ key → PathText rest segments →
      PathText ('[' :: '"' :: (key ++ '"' :: ']' :: rest)) (.key (String.ofList key) :: segments)
  | digits {digits rest : List Char} {segments : List JsonPathSegment} : digits ≠ [] → (∀ c ∈ digits, c.isDigit = true) →
      PathText rest segments → PathText ('[' :: (digits ++ ']' :: rest)) (.index (decimal digits) :: segments)

/-- Every index is a `usize`. -/
def WithinUsize (segments : List JsonPathSegment) : Prop := ∀ index, .index index ∈ segments → index < 2 ^ 64

variable {segments : List JsonPathSegment}

theorem withinUsize_key {key : String} :
    WithinUsize (.key key :: segments) ↔ WithinUsize segments := by
  unfold WithinUsize
  simp

theorem withinUsize_index {index : Nat} :
    WithinUsize (.index index :: segments) ↔ index < 2 ^ 64 ∧ WithinUsize segments := by
  unfold WithinUsize
  simp

theorem parseIndex_eq_some {digits : List Char} {index : Nat} :
    parseIndex digits = some index ↔ digits ≠ [] ∧ decimal digits = index ∧ index < 2 ^ 64 := by
  unfold parseIndex
  split
  case isTrue hempty => exact ⟨nofun, fun h => absurd hempty h.1⟩
  case isFalse hdigits =>
    show (if decimal digits < 2 ^ 64 then some (decimal digits) else none) = some index ↔ _
    constructor
    · intro h
      obtain ⟨hlt, hindex⟩ := Option.ite_none_right_eq_some.mp h
      exact ⟨hdigits, Option.some.inj hindex, Option.some.inj hindex ▸ hlt⟩
    · rintro ⟨-, rfl, hlt⟩
      exact if_pos hlt

variable {rest : List Char}

/-- A name ends where the next segment begins. -/
theorem takeWhile_pathText (h : PathText rest segments) :
    rest.takeWhile isKeyChar = [] := by
  cases h with
  | nil => rfl
  | name => rfl
  | quoted => rfl
  | digits => rfl

theorem takeWhile_append_of_all {p : Char → Bool} {chars rest : List Char} (hchars : ∀ c ∈ chars, p c = true)
    (hrest : rest.takeWhile p = []) : (chars ++ rest).takeWhile p = chars := by
  rw [List.takeWhile_append_of_pos hchars, hrest, List.append_nil]

/-- The parser reads the grammar, with as much fuel as there is text. -/
theorem parseSegments_of_pathText (h : PathText rest segments)
    (hwithin : WithinUsize segments) {fuel : Nat} (hfuel : rest.length ≤ fuel) :
    parseSegments fuel rest = some segments := by
  induction h generalizing fuel with
  | nil => rw [parseSegments]
  | @name name rest segments hname hchars hrest ih =>
    cases fuel with
    | zero => exact nomatch hfuel
    | succ fuel =>
      have hkey := takeWhile_append_of_all hchars (takeWhile_pathText hrest)
      have hlength : rest.length ≤ fuel := by
        rw [List.length_cons, List.length_append] at hfuel
        omega
      rw [parseSegments, hkey, if_neg hname, List.drop_left, ih (withinUsize_key.mp hwithin) hlength]
      rfl
  | @quoted key rest segments hquote hrest ih =>
    cases fuel with
    | zero => exact nomatch hfuel
    | succ fuel =>
      have hkey : (key ++ '"' :: ']' :: rest).takeWhile (fun c => decide (c ≠ '"')) = key :=
        takeWhile_append_of_all (fun c hc => decide_eq_true fun heq => hquote (heq ▸ hc)) rfl
      have hlength : rest.length ≤ fuel := by
        simp only [List.length_cons, List.length_append] at hfuel
        omega
      rw [parseSegments, hkey, List.drop_left]
      show (parseSegments fuel rest).map _ = _
      rw [ih (withinUsize_key.mp hwithin) hlength]
      rfl
  | @digits digits rest segments hdigits hchars hrest ih =>
    cases fuel with
    | zero => exact nomatch hfuel
    | succ fuel =>
      obtain ⟨hindex, hwithin⟩ := withinUsize_index.mp hwithin
      have hkey : (digits ++ ']' :: rest).takeWhile Char.isDigit = digits :=
        takeWhile_append_of_all hchars rfl
      have hlength : rest.length ≤ fuel := by
        simp only [List.length_cons, List.length_append] at hfuel
        omega
      have hparsed : parseIndex digits = some (decimal digits) := parseIndex_eq_some.mpr ⟨hdigits, rfl, hindex⟩
      rw [parseSegments]
      · rw [hkey, List.drop_left, hparsed]
        show (parseSegments fuel rest).map _ = _
        rw [ih hwithin hlength]
        rfl
      · rintro rest' heq
        cases digits with
        | nil => exact hdigits rfl
        | cons digit digits =>
          obtain rfl := (List.cons.inj heq).1
          exact absurd (hchars '"' List.mem_cons_self) (by decide)

theorem eq_append_of_takeWhile {p : Char → Bool} {rest after : List Char}
    (h : rest.drop (rest.takeWhile p).length = after) : rest = rest.takeWhile p ++ after := by
  rw [← h]
  exact (List.prefix_iff_eq_append.mp (List.takeWhile_prefix p)).symm

theorem pathText_of_parseSegments {fuel : Nat}
    (h : parseSegments fuel rest = some segments) : PathText rest segments ∧ WithinUsize segments := by
  fun_induction parseSegments fuel rest generalizing segments with
  | case1 =>
    obtain rfl := Option.some.inj h
    exact ⟨.nil, by rintro _ ⟨⟩⟩
  | case4 =>
    rename_i fuel rest key hkey ih
    obtain ⟨tail, htail, rfl⟩ := Option.map_eq_some_iff.mp h
    obtain ⟨htext, hwithin⟩ := ih htail
    refine ⟨?_, withinUsize_key.mpr hwithin⟩
    have hrest : rest = rest.takeWhile isKeyChar ++ rest.drop (rest.takeWhile isKeyChar).length := eq_append_of_takeWhile rfl
    rw [hrest]
    exact .name hkey (fun c => List.mem_takeWhile_imp) htext
  | case5 =>
    rename_i fuel rest key after hdrop ih
    obtain ⟨tail, htail, rfl⟩ := Option.map_eq_some_iff.mp h
    obtain ⟨htext, hwithin⟩ := ih htail
    refine ⟨?_, withinUsize_key.mpr hwithin⟩
    rw [eq_append_of_takeWhile hdrop]
    refine .quoted (fun hquote => ?_) htext
    have hne : decide ('"' ≠ '"') = true := List.mem_takeWhile_imp (p := fun c => decide (c ≠ '"')) hquote
    exact of_decide_eq_true hne rfl
  | case7 =>
    rename_i fuel rest hquote digits index after hdrop hindex ih
    obtain ⟨tail, htail, rfl⟩ := Option.map_eq_some_iff.mp h
    obtain ⟨htext, hwithin⟩ := ih htail
    obtain ⟨hdigits, rfl, hlt⟩ := parseIndex_eq_some.mp hindex
    refine ⟨?_, withinUsize_index.mpr ⟨hlt, hwithin⟩⟩
    rw [eq_append_of_takeWhile hdrop]
    exact .digits hdigits (fun c => List.mem_takeWhile_imp) htext
  | case2 | case3 | case6 | case8 | case9 => cases h

/-- A path is `$` and a text of the grammar whose indices fit. -/
theorem parseJsonPath_eq_some {path : String} :
    parseJsonPath path = some segments ↔
      ∃ rest, path.toList = '$' :: rest ∧ PathText rest segments ∧ WithinUsize segments := by
  unfold parseJsonPath
  split
  case h_1 rest hpath =>
    constructor
    · exact fun h => ⟨rest, hpath, pathText_of_parseSegments h⟩
    · rintro ⟨rest', hpath', htext, hwithin⟩
      obtain rfl := (List.cons.inj (hpath.symm.trans hpath')).2
      exact parseSegments_of_pathText htext hwithin le_rfl
  case h_2 hpath => exact ⟨nofun, fun ⟨rest, hpath', _⟩ => absurd hpath' (hpath rest)⟩

/-! ## Patches -/

section
variable {lib : Libraries}

/-- What a patch writes, and where: nothing if it has no value, or an empty string. -/
def patchWrite (lib : Libraries) (patch : Json) : Option (List JsonPathSegment × Json) :=
  patch.asObject.bind fun fields => ((Fields.get fields "jsonPath").bind Json.asStr).bind fun path =>
    (partialArgValue lib fields).bind fun value =>
      if value.asStr = some "" then none else (parseJsonPath path).map (·, value)

theorem applyPatch_write {target patch result : Json} (h : applyPatch lib target patch = .ok result) :
    (patchWrite lib patch = none ∧ result = target) ∨
      ∃ segments value, patchWrite lib patch = some (segments, value) ∧
        setJsonPathSegments value segments target = .ok result := by
  obtain ⟨fields, hfields, hpatched⟩ := bind_eq_ok.mp h
  obtain ⟨path, hpath, hset⟩ := bind_eq_ok.mp hpatched
  rw [okOr_eq_ok] at hfields hpath
  unfold patchWrite
  rw [hfields, Option.bind_some, hpath, Option.bind_some]
  split at hset
  case h_1 hvalue =>
    rw [hvalue]
    exact .inl ⟨rfl, (Except.ok.inj hset).symm⟩
  case h_2 value hvalue =>
    rw [hvalue, Option.bind_some]
    split at hset
    case isTrue hempty =>
      rw [if_pos hempty]
      exact .inl ⟨rfl, (Except.ok.inj hset).symm⟩
    case isFalse hsome =>
      obtain ⟨segments, hsegments, hresult⟩ := bind_eq_ok.mp hset
      rw [okOr_eq_ok] at hsegments
      split at hresult
      case isTrue => exact nomatch hresult
      case isFalse =>
        rw [if_neg hsome, hsegments]
        exact .inr ⟨segments, value, rfl, hresult⟩

/-- The last of the writes that leads to the path or goes on from it. -/
def lastWrite (writes : List (List JsonPathSegment × Json)) (path : List JsonPathSegment) :
    Option (List JsonPathSegment × Json) :=
  writes.reverse.find? fun write => !decide (Unrelated write.1 path)

/-- A path below the last of its writes reads as the value of that, and a path without writes as before. -/
theorem readPath_patches {patches : List Json} {target result : Json}
    (h : patches.foldlM (applyPatch lib) target = .ok result) (path : List JsonPathSegment) :
    match lastWrite (patches.filterMap (patchWrite lib)) path with
    | none => ∀ old, readPath path target = some old → readPath path result = some old
    | some (segments, value) => ∀ rest old, path = segments ++ rest → readPath rest value = some old →
        readPath path result = some old := by
  induction patches using List.reverseRecOn generalizing result with
  | nil =>
    obtain rfl := Except.ok.inj h
    exact fun _ => id
  | append_singleton patches patch ih =>
    rw [List.foldlM_append] at h
    obtain ⟨next, hnext, hlast⟩ := bind_eq_ok.mp h
    obtain ⟨result', hpatch, hresult⟩ := bind_eq_ok.mp hlast
    obtain rfl := Except.ok.inj hresult
    have hbefore := ih hnext
    rw [List.filterMap_append]
    rcases applyPatch_write hpatch with ⟨hnone, rfl⟩ | ⟨segments, value, hwrite, hset⟩
    · rw [List.filterMap_cons_none hnone, List.filterMap_nil, List.append_nil]
      exact hbefore
    · rw [List.filterMap_cons_some hwrite, List.filterMap_nil, lastWrite, List.reverse_concat, List.find?_cons]
      by_cases hpath : Unrelated segments path
      · rw [decide_eq_true hpath]
        show match lastWrite (patches.filterMap (patchWrite lib)) path with
          | none => _
          | some (segments, value) => _
        split at hbefore
        case h_1 => exact fun old hread => readPath_set_unrelated hset hpath (hbefore old hread)
        case h_2 =>
          exact fun rest old heq hread => readPath_set_unrelated hset hpath (hbefore rest old heq hread)
      · rw [decide_eq_false hpath]
        intro rest old heq hread
        rw [heq, readPath_append_set hset, hread]

theorem setJsonPath_ok {target value result : Json} {path : String} (h : setJsonPath target path value = .ok result) :
    ∃ segments, parseJsonPath path = some segments ∧ segments ≠ [] ∧
      setJsonPathSegments value segments target = .ok result := by
  obtain ⟨segments, hsegments, hset⟩ := bind_eq_ok.mp h
  rw [okOr_eq_ok] at hsegments
  split at hset
  case isTrue => exact nomatch hset
  case isFalse hne => exact ⟨segments, hsegments, hne, hset⟩

theorem setJsonPath_eq {path : String} {segments : List JsonPathSegment} (hsegments : parseJsonPath path = some segments)
    (hne : segments ≠ []) (target value : Json) :
    setJsonPath target path value = setJsonPathSegments value segments target := by
  rw [setJsonPath, hsegments]
  exact if_neg hne

/-- The paths that are read are those of the grammar whose indices fit. A value that was set is read at its path,
unrelated paths read as before, and setting a value again forgets the one before, so setting the same value changes
nothing. After a list of patches, a path below the last of its writes reads as the value of that, and a path without
writes as before. -/
theorem patches_write_last (lib : Libraries) :
    (∀ path segments, parseJsonPath path = some segments ↔
      ∃ rest, path.toList = '$' :: rest ∧ PathText rest segments ∧ WithinUsize segments) ∧
    (∀ target path value result, setJsonPath target path value = .ok result →
      setJsonPath result path value = .ok result ∧
      (∀ value', setJsonPath result path value' = setJsonPath target path value') ∧
      ∃ segments, parseJsonPath path = some segments ∧ readPath segments result = some value ∧
        ∀ path' old, Unrelated segments path' → readPath path' target = some old → readPath path' result = some old) ∧
    ∀ target patches result, applyPartialArgs lib target (.array patches) = .ok result →
      ∀ path, match lastWrite (patches.filterMap (patchWrite lib)) path with
        | none => ∀ old, readPath path target = some old → readPath path result = some old
        | some (segments, value) => ∀ rest old, path = segments ++ rest → readPath rest value = some old →
            readPath path result = some old := by
  refine ⟨fun path segments => parseJsonPath_eq_some, fun target path value result h => ?_,
    fun target patches result h path => ?_⟩
  · obtain ⟨segments, hsegments, hne, hset⟩ := setJsonPath_ok h
    have hagain : ∀ value', setJsonPath result path value' = setJsonPath target path value' := by
      intro value'
      rw [setJsonPath_eq hsegments hne, setJsonPath_eq hsegments hne]
      exact set_set hset value'
    refine ⟨(hagain value).trans h, hagain, segments, hsegments, ?_, fun path' old hpath hread =>
      readPath_set_unrelated hset hpath hread⟩
    rw [← List.append_nil segments, readPath_append_set hset, readPath]
  · obtain ⟨items, hitems, hfold⟩ := bind_eq_ok.mp h
    rw [okOr_eq_ok] at hitems
    obtain rfl := Option.some.inj hitems
    exact readPath_patches hfold path

end

/-! ## Samples -/

theorem patches_write_last_set :
    ∀ value', setJsonPath (.object [("a", .array [.null, .bool true])]) "$.a[1]" value' =
      setJsonPath (.object []) "$.a[1]" value' := by
  have hset : setJsonPath (.object []) "$.a[1]" (.bool true) = .ok (.object [("a", .array [.null, .bool true])]) := by
    decide +kernel
  exact ((patches_write_last (Libraries.ofTexts [])).2.1 _ _ _ _ hset).2.1

/-- An index that does not fit is not read, and an empty string is not written. -/
theorem patches_write_otherwise :
    (¬∀ path, (parseJsonPath path).isSome = true ↔ ∃ rest segments, path.toList = '$' :: rest ∧ PathText rest segments) ∧
    ¬∀ target patches fields path segments value result, Fields.get fields "jsonPath" = some (.string path) →
      parseJsonPath path = some segments → partialArgValue (Libraries.ofTexts []) fields = some value →
      applyPartialArgs (Libraries.ofTexts []) target (.array (patches ++ [.object fields])) = .ok result →
      readPath segments result = some value := by
  refine ⟨fun h => ?_, fun h => ?_⟩
  · have hdigits : "18446744073709551616".toList.all Char.isDigit = true := by decide +kernel
    have htext : PathText ('[' :: ("18446744073709551616".toList ++ [']'])) [.index (decimal "18446744073709551616".toList)] :=
      .digits (by decide +kernel) (List.all_eq_true.mp hdigits) .nil
    have hpath : "$[18446744073709551616]".toList = '$' :: '[' :: ("18446744073709551616".toList ++ [']']) := by
      decide +kernel
    have hread := (h "$[18446744073709551616]").mpr ⟨_, _, hpath, htext⟩
    exact absurd hread (by decide +kernel)
  · have hkept := h (.object [("a", .string "x")]) []
      [("jsonPath", .string "$.a"), ("stringValue", .string "")] "$.a" [.key "a"] (.string "")
      (.object [("a", .string "x")]) rfl (by decide +kernel) (by decide +kernel) (by decide +kernel)
    exact absurd hkept (by decide +kernel)

end Zenith.Protocol
