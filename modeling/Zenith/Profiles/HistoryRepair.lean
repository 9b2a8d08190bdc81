import Mathlib
import Zenith.Lib.Encoding
import Zenith.Lib.JsonSize
import Zenith.Lib.Lines
import Zenith.Lib.Tables

/-!
# Repairing the history of a profile

`scan_rollout` and `rewrite_rollout` of `profiles/repair.rs`. A rollout is a file of JSON lines; the
records of type `session_meta` name the provider of the session. A scan counts those that name another
one than the target, and the rewriting pass writes the target into them and copies all other bytes. It is
stricter than the scan: a record without a payload object is counted, and not rewritten.

The scan goes over the bytes of a file one by one, whatever the chunks are that they are read in.
-/

namespace Zenith.Profiles.History

open Zenith.Bytes Zenith.Lines Zenith.Tables

/-! ## Scanning -/

def maxRolloutBytes : Nat := 1024 * 1024 * 1024

def maxRolloutHeaderBytes : Nat := 1024 * 1024

/-- A `session_meta` record, and where its line is. -/
structure SessionMeta where
  start : Nat
  stop : Nat
  separator : List UInt8
  value : Json

structure SessionMetadata where
  records : List SessionMeta := []

structure RolloutSnapshot where
  path : String
  hash : String
  records : Nat
deriving DecidableEq, Repr

def newline : UInt8 := 10

/-- A line and the separator that ends it. -/
def splitSeparator (line : List UInt8) : List UInt8 × List UInt8 :=
  if [13, newline] <:+ line then (line.take (line.length - 2), [13, newline])
  else if [newline] <:+ line then (line.take (line.length - 1), [newline])
  else (line, [])

def sessionMetaValue (serde : Json.Serde) (line : List UInt8) : Option (Json × List UInt8) :=
  (serde.fromSlice (splitSeparator line).1).bind fun value =>
    if (value.get "type").bind Json.asStr = some "session_meta" then some (value, (splitSeparator line).2)
    else none

def sessionMetaProvider (value : Json) : Option String :=
  ((value.get "payload").bind fun payload => payload.get "model_provider").bind Json.asStr

def recordSessionMetadata (serde : Json.Serde) (metadata : SessionMetadata) (line : List UInt8)
    (start stop : Nat) : SessionMetadata :=
  match sessionMetaValue serde line with
  | none => metadata
  | some (value, separator) => ⟨metadata.records ++ [{ start, stop, separator, value }]⟩

/-- The state of the scan. -/
structure Scan where
  metadata : SessionMetadata := {}
  line : List UInt8 := []
  lineTooLarge : Bool := false
  lineStart : Nat := 0
  offset : Nat := 0

/-- A line that grows too large is dropped. -/
def Scan.push (scan : Scan) (byte : UInt8) : Scan :=
  if scan.lineTooLarge then scan
  else if maxRolloutHeaderBytes ≤ scan.line.length then { scan with line := [], lineTooLarge := true }
  else { scan with line := scan.line ++ [byte] }

/-- The record of a line that ends. Only the first line has to be small enough. -/
def Scan.record (serde : Json.Serde) (scan : Scan) : Except String SessionMetadata :=
  if scan.lineTooLarge then
    if scan.lineStart = 0 then .error "ChatGPT rollout session metadata is too large"
    else .ok scan.metadata
  else .ok (recordSessionMetadata serde scan.metadata scan.line scan.lineStart scan.offset)

def Scan.read (serde : Json.Serde) (scan : Scan) (byte : UInt8) : Except String Scan := do
  let scan := { scan.push byte with offset := scan.offset + 1 }
  if byte ≠ newline then .ok scan
  else
    let metadata ← scan.record serde
    .ok { metadata, line := [], lineTooLarge := false, lineStart := scan.offset, offset := scan.offset }

def readSessionMetadata (serde : Json.Serde) (content : List UInt8) : Except String SessionMetadata :=
  if maxRolloutBytes < content.length then .error "ChatGPT rollout file is too large"
  else do
    let scan ← content.foldlM (Scan.read serde) {}
    if scan.lineStart < scan.offset then scan.record serde else .ok scan.metadata

def sessionMetaReplacements (metadata : SessionMetadata) (target : String) : List SessionMeta :=
  metadata.records.filter fun item => sessionMetaProvider item.value ≠ some target

def scanRollout (serde : Json.Serde) (sha256 : List UInt8 → List UInt8) (path : String)
    (content : List UInt8) (target : String) : Except String RolloutSnapshot :=
  if maxRolloutBytes < content.length then .error "ChatGPT rollout file is too large"
  else do
    let metadata ← readSessionMetadata serde content
    .ok { path
          hash := hexEncode (sha256 content)
          records := (sessionMetaReplacements metadata target).length }

/-! ## Rewriting -/

/-- The record with the target as its provider, if it has a payload to write it in. -/
def withProvider (value : Json) (target : String) : Option Json :=
  value.asObject.bind fun fields =>
    ((fields.get "payload").bind Json.asObject).map fun payload =>
      .object (fields.insert "payload" (.object (payload.insert "model_provider" (.string target))))

/-- What is written from a position on. -/
def rewriteFrom (serde : Json.Serde) (input : List UInt8) (target : String) (position : Nat) :
    List SessionMeta → Except String (List UInt8)
  | [] => .ok (input.drop position)
  | replacement :: replacements =>
    if replacement.start < position ∨ replacement.stop < replacement.start then
      .error "ChatGPT rollout changed during repair"
    else
      let copied := (input.drop position).take (replacement.start - position)
      if copied.length ≠ replacement.start - position then .error "ChatGPT rollout changed during repair"
      else
        match withProvider replacement.value target with
        | none => .error "ChatGPT session metadata is invalid"
        | some updated => do
          let rest ← rewriteFrom serde input target replacement.stop replacements
          .ok (copied ++ utf8 (serde.toString updated) ++ replacement.separator ++ rest)

/-- What the file is replaced by. After an error it stays as it was. -/
def rewriteRollout (serde : Json.Serde) (content : List UInt8) (target : String) (expected : Nat) :
    Except String (List UInt8) := do
  let metadata ← readSessionMetadata serde content
  let replacements := sessionMetaReplacements metadata target
  if replacements = [] ∨ replacements.length ≠ expected then .error "ChatGPT rollout changed during repair"
  else rewriteFrom serde content target 0 replacements

/-! ## The lines of a rollout -/

section
variable (serde : Json.Serde) (target : String)

/-- The lines of a file, with their ends. -/
def linesOf (content : List UInt8) : List (List UInt8) := splitInclusive newline content

/-- The first line is small enough for the scan. -/
def HeadFits (content : List UInt8) : Prop :=
  ∀ line, (linesOf content).head? = some line → line.length ≤ maxRolloutHeaderBytes

/-- What is recorded of a line. -/
def lineRecord (start : Nat) (line : List UInt8) : Option SessionMeta :=
  if line.length ≤ maxRolloutHeaderBytes then
    (sessionMetaValue serde line).map fun record => ⟨start, start + line.length, record.2, record.1⟩
  else none

def recordsFrom (start : Nat) : List (List UInt8) → List SessionMeta
  | [] => []
  | line :: lines => (lineRecord serde start line).toList ++ recordsFrom (start + line.length) lines

/-- The state in the middle of a line. -/
def Scan.within (metadata : SessionMetadata) (lineStart : Nat) (seen : List UInt8) : Scan where
  metadata
  line := if seen.length ≤ maxRolloutHeaderBytes then seen else []
  lineTooLarge := !decide (seen.length ≤ maxRolloutHeaderBytes)
  lineStart
  offset := lineStart + seen.length

variable {serde}

theorem Scan.push_within (metadata : SessionMetadata) (lineStart : Nat) (seen : List UInt8) (byte : UInt8) :
    { (Scan.within metadata lineStart seen).push byte with
        offset := (Scan.within metadata lineStart seen).offset + 1 } =
      Scan.within metadata lineStart (seen ++ [byte]) := by
  unfold Scan.push Scan.within
  rw [List.length_append, List.length_singleton]
  by_cases hfits : seen.length + 1 ≤ maxRolloutHeaderBytes
  · have hseen : seen.length ≤ maxRolloutHeaderBytes := Nat.le_of_succ_le hfits
    simp [hfits, hseen, Nat.not_le.mpr hfits, Nat.add_assoc]
  · by_cases hseen : seen.length ≤ maxRolloutHeaderBytes
    · have hfull : maxRolloutHeaderBytes ≤ seen.length := by omega
      simp [hfits, hseen, hfull, Nat.add_assoc]
    · simp [hfits, hseen, Nat.add_assoc]

variable {metadata : SessionMetadata} {lineStart : Nat}

theorem Scan.read_within (body seen : List UInt8)
    (hbody : newline ∉ body) :
    body.foldlM (Scan.read serde) (Scan.within metadata lineStart seen) =
      .ok (Scan.within metadata lineStart (seen ++ body)) := by
  induction body generalizing seen with
  | nil =>
    rw [List.append_nil]
    rfl
  | cons byte body ih =>
    rw [List.mem_cons, not_or] at hbody
    have hread : Scan.read serde (Scan.within metadata lineStart seen) byte =
        .ok (Scan.within metadata lineStart (seen ++ [byte])) := by
      rw [Scan.read, Scan.push_within, if_pos (Ne.symm hbody.1)]
    rw [List.foldlM_cons, hread]
    have hrest := ih (seen ++ [byte]) hbody.2
    rwa [List.append_assoc] at hrest

theorem Scan.record_within {line : List UInt8}
    (h : lineStart = 0 → line.length ≤ maxRolloutHeaderBytes) :
    (Scan.within metadata lineStart line).record serde =
      .ok ⟨metadata.records ++ (lineRecord serde lineStart line).toList⟩ := by
  unfold Scan.record Scan.within lineRecord recordSessionMetadata
  by_cases hfits : line.length ≤ maxRolloutHeaderBytes
  · simp only [hfits, decide_true, Bool.not_true, Bool.false_eq_true, if_false, if_true]
    cases sessionMetaValue serde line with
    | none => simp
    | some record => rfl
  · have hstart : lineStart ≠ 0 := fun hstart => hfits (h hstart)
    simp [hfits, hstart]

theorem Scan.record_within_error {line : List UInt8}
    (h : ¬ line.length ≤ maxRolloutHeaderBytes) :
    (Scan.within metadata 0 line).record serde =
      .error "ChatGPT rollout session metadata is too large" := by
  simp [Scan.record, Scan.within, h]

/-- What the scan does after the last byte. -/
def Scan.finish (serde : Json.Serde) (scan : Scan) : Except String SessionMetadata :=
  if scan.lineStart < scan.offset then scan.record serde else .ok scan.metadata

/-- A line that ends is recorded, and the next starts. -/
theorem Scan.read_line {body : List UInt8}
    (hbody : newline ∉ body) (rest : List UInt8) :
    (body ++ newline :: rest).foldlM (Scan.read serde) (Scan.within metadata lineStart []) =
      (Scan.within metadata lineStart (body ++ [newline])).record serde >>= fun metadata =>
        rest.foldlM (Scan.read serde)
          (Scan.within metadata (lineStart + (body ++ [newline]).length) []) := by
  rw [List.foldlM_append, Scan.read_within body [] hbody, List.nil_append]
  show (newline :: rest).foldlM (Scan.read serde) (Scan.within metadata lineStart body) = _
  rw [List.foldlM_cons, Scan.read, Scan.push_within, if_neg (not_not.mpr rfl)]
  cases (Scan.within metadata lineStart (body ++ [newline])).record serde with
  | error message => rfl
  | ok metadata' => simp [bind, Except.bind, Scan.within]

theorem Scan.finish_within {body : List UInt8} (hne : body ≠ []) :
    (Scan.within metadata lineStart body).finish serde =
      (Scan.within metadata lineStart body).record serde := by
  have hlength := List.length_pos_iff.mpr hne
  rw [Scan.finish, if_pos]
  show lineStart < lineStart + body.length
  omega

/-- The scan records the lines one by one. -/
theorem Scan.read_lines (content : List UInt8) (metadata : SessionMetadata) (lineStart : Nat)
    (hhead : lineStart = 0 → HeadFits content) :
    (content.foldlM (Scan.read serde) (Scan.within metadata lineStart []) >>= Scan.finish serde) =
      .ok ⟨metadata.records ++ recordsFrom serde lineStart (linesOf content)⟩ := by
  induction content using lines_induction newline generalizing metadata lineStart with
  | nil =>
    have hdone : ¬ (Scan.within metadata lineStart []).lineStart <
        (Scan.within metadata lineStart []).offset := Nat.lt_irrefl lineStart
    show Scan.finish serde _ = _
    rw [Scan.finish, if_neg hdone, linesOf, splitInclusive, recordsFrom, List.append_nil]
    rfl
  | line body rest hbody ih =>
    rw [HeadFits, linesOf, splitInclusive_append hbody] at hhead
    rw [Scan.read_line hbody, Scan.record_within fun hstart => hhead hstart _ rfl, linesOf,
      splitInclusive_append hbody, recordsFrom, ← List.append_assoc]
    refine ih _ _ fun hstart => ?_
    rw [List.length_append, List.length_singleton] at hstart
    omega
  | last body hbody hne =>
    rw [HeadFits, linesOf, splitInclusive_of_not_mem hbody hne] at hhead
    rw [Scan.read_within body [] hbody, List.nil_append, linesOf, splitInclusive_of_not_mem hbody hne,
      recordsFrom, recordsFrom, List.append_nil]
    show Scan.finish serde _ = _
    rw [Scan.finish_within hne, Scan.record_within fun hstart => hhead hstart _ rfl]

/-- A file is read when it is not too large and its first line is not. -/
theorem readSessionMetadata_ok_iff {content : List UInt8} :
    readSessionMetadata serde content = .ok metadata ↔
      content.length ≤ maxRolloutBytes ∧ HeadFits content ∧
        metadata = ⟨recordsFrom serde 0 (linesOf content)⟩ := by
  unfold readSessionMetadata
  by_cases hsize : maxRolloutBytes < content.length
  · rw [if_pos hsize]
    exact ⟨nofun, fun h => absurd h.1 (Nat.not_le.mpr hsize)⟩
  · rw [if_neg hsize]
    change (content.foldlM (Scan.read serde) (Scan.within {} 0 []) >>= Scan.finish serde) = _ ↔ _
    by_cases hhead : HeadFits content
    · rw [Scan.read_lines content {} 0 fun _ => hhead, List.nil_append]
      refine ⟨fun h => ⟨Nat.not_lt.mp hsize, hhead, (Except.ok.inj h).symm⟩, fun h => ?_⟩
      rw [h.2.2]
    · have herror : (content.foldlM (Scan.read serde) (Scan.within {} 0 []) >>= Scan.finish serde) =
          .error "ChatGPT rollout session metadata is too large" := by
        obtain ⟨line, hline, hlarge⟩ : ∃ line, (linesOf content).head? = some line ∧
            ¬ line.length ≤ maxRolloutHeaderBytes := by
          simpa [HeadFits] using hhead
        induction content using lines_induction newline with
        | nil => exact nomatch hline
        | line body rest hbody =>
          rw [linesOf, splitInclusive_append hbody] at hline
          obtain rfl := Option.some.inj hline
          rw [Scan.read_line hbody, Scan.record_within_error hlarge]
          rfl
        | last body hbody hne =>
          rw [linesOf, splitInclusive_of_not_mem hbody hne] at hline
          obtain rfl := Option.some.inj hline
          rw [Scan.read_within body [] hbody, List.nil_append]
          show Scan.finish serde _ = _
          rw [Scan.finish_within hne, Scan.record_within_error hlarge]
      rw [herror]
      exact ⟨nofun, fun h => absurd h.2.1 hhead⟩

/-! ## The records to rewrite -/

variable (serde)

/-- The record in a line that names another provider, and its separator. -/
def needsRepair (line : List UInt8) : Option (Json × List UInt8) :=
  if line.length ≤ maxRolloutHeaderBytes then
    (sessionMetaValue serde line).filter fun record => sessionMetaProvider record.1 ≠ some target
  else none

/-- The line after the repair. -/
def repairedLine (line : List UInt8) : List UInt8 :=
  match needsRepair serde target line with
  | none => line
  | some (value, separator) =>
    match withProvider value target with
    | none => line
    | some updated => utf8 (serde.toString updated) ++ separator

def replacementsFrom (start : Nat) : List (List UInt8) → List SessionMeta
  | [] => []
  | line :: lines =>
    ((needsRepair serde target line).map fun record =>
      (⟨start, start + line.length, record.2, record.1⟩ : SessionMeta)).toList ++
    replacementsFrom (start + line.length) lines

variable {serde target}

theorem sessionMetaReplacements_recordsFrom (start : Nat) (lines : List (List UInt8)) :
    sessionMetaReplacements ⟨recordsFrom serde start lines⟩ target =
      replacementsFrom serde target start lines := by
  induction lines generalizing start with
  | nil => rfl
  | cons line lines ih =>
    have hline : (lineRecord serde start line).toList.filter
          (fun item => sessionMetaProvider item.value ≠ some target) =
        ((needsRepair serde target line).map fun record =>
          (⟨start, start + line.length, record.2, record.1⟩ : SessionMeta)).toList := by
      unfold lineRecord needsRepair
      split
      · cases sessionMetaValue serde line with
        | none => rfl
        | some record =>
          by_cases hprovider : sessionMetaProvider record.1 = some target <;>
            simp [Option.filter, hprovider]
      · rfl
    rw [replacementsFrom, ← ih, ← hline]
    exact List.filter_append _ _

theorem length_replacementsFrom (start : Nat) (lines : List (List UInt8)) :
    (replacementsFrom serde target start lines).length =
      (lines.filter fun line => (needsRepair serde target line).isSome).length := by
  induction lines generalizing start with
  | nil => rfl
  | cons line lines ih =>
    rw [replacementsFrom, List.length_append, ih, List.filter_cons]
    cases needsRepair serde target line with
    | none => simp
    | some record => simp [Nat.add_comm]

/-- Every record to rewrite has a payload to write the provider in. -/
def HavePayloads (serde : Json.Serde) (target : String) (lines : List (List UInt8)) : Prop :=
  ∀ line ∈ lines, ∀ value separator, needsRepair serde target line = some (value, separator) →
    ((value.get "payload").bind Json.asObject).isSome = true

theorem withProvider_isSome {value : Json} :
    (withProvider value target).isSome = ((value.get "payload").bind Json.asObject).isSome := by
  unfold withProvider
  cases value with
  | object fields =>
    show (((Json.Fields.get fields "payload").bind Json.asObject).map _).isSome = _
    rw [Option.isSome_map]
    rfl
  | _ => rfl

/-- The rewriting pass replaces lines one by one. -/
theorem rewriteFrom_lines (input : List UInt8) (lines : List (List UInt8)) (position : Nat)
    (pending : List UInt8) (hinput : input.drop position = pending ++ lines.flatten) (output : List UInt8) :
    rewriteFrom serde input target position
        (replacementsFrom serde target (position + pending.length) lines) = .ok output ↔
      HavePayloads serde target lines ∧ output = pending ++ lines.flatMap (repairedLine serde target) := by
  induction lines generalizing position pending output with
  | nil =>
    rw [replacementsFrom, rewriteFrom, hinput, List.flatMap_nil, List.flatten_nil]
    refine ⟨fun h => ⟨fun _ hline => (nomatch hline), (Except.ok.inj h).symm⟩, fun h => ?_⟩
    rw [h.2]
  | cons line lines ih =>
    have hcons : HavePayloads serde target (line :: lines) ↔
        (∀ value separator, needsRepair serde target line = some (value, separator) →
          ((value.get "payload").bind Json.asObject).isSome = true) ∧ HavePayloads serde target lines := by
      simp [HavePayloads]
    rw [hcons, replacementsFrom, List.flatMap_cons, repairedLine]
    cases hneeds : needsRepair serde target line with
    | none =>
      have hrest := ih position (pending ++ line) (by rw [hinput, List.flatten_cons, List.append_assoc]) output
      rw [List.length_append, ← Nat.add_assoc, List.append_assoc] at hrest
      simpa using hrest
    | some record =>
      obtain ⟨value, separator⟩ := record
      have hcopied : (input.drop position).take (position + pending.length - position) = pending := by
        rw [hinput, Nat.add_sub_cancel_left, List.take_left']
        rfl
      have hnext : input.drop (position + pending.length + line.length) = [] ++ lines.flatten := by
        rw [Nat.add_assoc, ← List.drop_drop, hinput, List.flatten_cons, ← List.append_assoc,
          ← List.length_append, List.drop_left, List.nil_append]
      have horder : ¬ (position + pending.length < position ∨
          position + pending.length + line.length < position + pending.length) := by omega
      have hlength : ¬ pending.length ≠ position + pending.length - position := by omega
      rw [Option.map_some, Option.toList_some, List.singleton_append, rewriteFrom, if_neg horder]
      dsimp only
      rw [hcopied, if_neg hlength]
      have hpayload := @withProvider_isSome target value
      cases hupdated : withProvider value target with
      | none =>
        rw [hupdated] at hpayload
        refine ⟨nofun, fun h => ?_⟩
        have hsome := h.1.1 value separator rfl
        exact nomatch hpayload.trans hsome
      | some updated =>
        rw [hupdated] at hpayload
        have hrest := ih (position + pending.length + line.length) [] hnext
        rw [List.length_nil, Nat.add_zero] at hrest
        dsimp only
        rw [bind_eq_ok]
        constructor
        · rintro ⟨rest, hwritten, hrest'⟩
          obtain ⟨hall, rfl⟩ := (hrest rest).mp hwritten
          refine ⟨⟨fun value' separator' heq => ?_, hall⟩, ?_⟩
          · obtain ⟨rfl, -⟩ := Prod.mk.inj (Option.some.inj heq)
            exact hpayload.symm
          · rw [← Except.ok.inj hrest', List.nil_append, List.append_assoc, List.append_assoc, List.append_assoc]
        · rintro ⟨⟨-, hall⟩, rfl⟩
          refine ⟨lines.flatMap (repairedLine serde target), (hrest _).mpr ⟨hall, rfl⟩, ?_⟩
          rw [List.append_assoc, List.append_assoc, List.append_assoc]

/-! ## The repaired file -/

end

/-- The text at a path of keys. -/
def textAt : List String → Json → Option String
  | [], value => value.asStr
  | key :: keys, value => (value.get key).bind (textAt keys)

/-- What is known of the parser and the printer: objects that are read have each key once, a printed value
stands on one line, and if it is read again, it has the texts it had. Numbers may be rounded. -/
structure Rereads (serde : Json.Serde) : Prop where
  ordered : ∀ bytes value, serde.fromSlice bytes = some value → value.Ordered
  nonempty : ∀ value, utf8 (serde.toString value) ≠ []
  one_line : ∀ value, newline ∉ utf8 (serde.toString value) ∧ 13 ∉ utf8 (serde.toString value)
  texts : ∀ value value', value.Ordered →
    serde.fromSlice (utf8 (serde.toString value)) = some value' → ∀ keys, textAt keys value' = textAt keys value

section
variable {serde : Json.Serde} {target : String}

theorem sessionMetaProvider_eq (value : Json) :
    sessionMetaProvider value = textAt ["payload", "model_provider"] value := by
  simp only [sessionMetaProvider, textAt, Option.bind_assoc]

variable {value updated : Json}

theorem textAt_withProvider (h : withProvider value target = some updated) :
    textAt ["payload", "model_provider"] updated = some target := by
  obtain ⟨fields, -, hupdated⟩ := Option.bind_eq_some_iff.mp h
  obtain ⟨payload, -, rfl⟩ := Option.map_eq_some_iff.mp hupdated
  simp [textAt, Json.get, Json.Fields.get_insert, Json.asStr]

theorem withProvider_ordered (hvalue : value.Ordered)
    (h : withProvider value target = some updated) : updated.Ordered := by
  obtain ⟨fields, hfields, hupdated⟩ := Option.bind_eq_some_iff.mp h
  obtain ⟨payload, hpayload, rfl⟩ := Option.map_eq_some_iff.mp hupdated
  obtain ⟨found, hfound, hobject⟩ := Option.bind_eq_some_iff.mp hpayload
  cases value with
  | object fields' =>
    obtain rfl := Option.some.inj hfields
    cases found with
    | object payload' =>
      obtain rfl := Option.some.inj hobject
      exact hvalue.insert ((hvalue.get hfound).insert (.string target))
    | _ => exact nomatch hobject
  | _ => exact nomatch hfields

/-- The separator of a line that has one. -/
theorem splitSeparator_line (body : List UInt8) :
    (splitSeparator (body ++ [newline])).2 = [13, newline] ∨
      (splitSeparator (body ++ [newline])).2 = [newline] := by
  unfold splitSeparator
  split
  · exact .inl rfl
  · rw [if_pos (List.suffix_append _ _)]
    exact .inr rfl

theorem splitSeparator_last {body : List UInt8} (hbody : newline ∉ body) :
    splitSeparator body = (body, []) := by
  have hnot : ∀ separator : List UInt8, newline ∈ separator → ¬ separator <:+ body :=
    fun separator hmem hsuffix => hbody (hsuffix.subset hmem)
  rw [splitSeparator, if_neg (hnot _ (by simp)), if_neg (hnot _ (by simp))]

theorem needsRepair_eq_some {line separator : List UInt8} {value : Json}
    (h : needsRepair serde target line = some (value, separator)) :
    line.length ≤ maxRolloutHeaderBytes ∧ serde.fromSlice (splitSeparator line).1 = some value ∧
      separator = (splitSeparator line).2 ∧ textAt ["type"] value = some "session_meta" ∧
      sessionMetaProvider value ≠ some target := by
  unfold needsRepair at h
  split at h
  case isTrue hfits =>
    obtain ⟨hrecord, hprovider⟩ := Option.filter_eq_some_iff.mp h
    obtain ⟨value', hread, hchecked⟩ := Option.bind_eq_some_iff.mp hrecord
    split at hchecked
    case isTrue htype =>
      obtain ⟨rfl, rfl⟩ := Prod.mk.inj (Option.some.inj hchecked)
      exact ⟨hfits, hread, rfl, htype, of_decide_eq_true hprovider⟩
    case isFalse => exact nomatch hchecked
  case isFalse => exact nomatch h

/-- A text on one line is found again when a separator is put after it. -/
theorem splitSeparator_append {text separator : List UInt8} (htext : newline ∉ text) (hreturn : 13 ∉ text)
    (hseparator : separator = [13, newline] ∨ separator = [newline] ∨ separator = []) :
    splitSeparator (text ++ separator) = (text, separator) := by
  rcases hseparator with rfl | rfl | rfl
  · rw [splitSeparator, if_pos (List.suffix_append _ _)]
    simp
  · have hnot : ¬ [13, newline] <:+ text ++ [newline] := by
      intro hsuffix
      rw [show [13, newline] = [13] ++ [newline] from rfl, List.suffix_append_inj_of_length_eq rfl] at hsuffix
      exact hreturn (hsuffix.1.subset List.mem_cons_self)
    rw [splitSeparator, if_neg hnot, if_pos (List.suffix_append _ _)]
    simp
  · rw [List.append_nil, splitSeparator_last htext]

/-- What stands in a repaired line. -/
theorem repairedLine_cases (line : List UInt8) :
    (repairedLine serde target line = line ∧ (needsRepair serde target line = none ∨
      ∃ value separator, needsRepair serde target line = some (value, separator) ∧
        withProvider value target = none)) ∨
    ∃ value separator updated, needsRepair serde target line = some (value, separator) ∧
      withProvider value target = some updated ∧
      repairedLine serde target line = utf8 (serde.toString updated) ++ separator := by
  unfold repairedLine
  cases hneeds : needsRepair serde target line with
  | none => exact .inl ⟨rfl, .inl rfl⟩
  | some record =>
    obtain ⟨value, separator⟩ := record
    cases hupdated : withProvider value target with
    | none => exact .inl ⟨by simp only [hupdated], .inr ⟨value, separator, rfl, hupdated⟩⟩
    | some updated => exact .inr ⟨value, separator, updated, rfl, hupdated, by simp only [hupdated]⟩

theorem repairedLine_keepsLines (h : Rereads serde) : KeepsLines newline (repairedLine serde target) where
  line := by
    intro body hbody
    rcases @repairedLine_cases serde target (body ++ [newline]) with
      ⟨hsame, -⟩ | ⟨value, separator, updated, hneeds, -, hrepaired⟩
    · exact ⟨body, hbody, hsame⟩
    · obtain ⟨hone, hreturn⟩ := h.one_line updated
      obtain ⟨-, -, hseparator, -⟩ := needsRepair_eq_some hneeds
      rcases splitSeparator_line body with hend | hend
      · refine ⟨utf8 (serde.toString updated) ++ [13], ?_, ?_⟩
        · rw [List.mem_append, List.mem_singleton]
          exact fun hmem => hmem.elim hone (by decide)
        · rw [hrepaired, hseparator, hend, List.append_assoc]
          rfl
      · exact ⟨utf8 (serde.toString updated), hone, by rw [hrepaired, hseparator, hend]⟩
  last := by
    intro body hbody hne
    rcases @repairedLine_cases serde target body with
      ⟨hsame, -⟩ | ⟨value, separator, updated, hneeds, -, hrepaired⟩
    · rw [hsame]
      exact ⟨hbody, hne⟩
    · obtain ⟨-, -, hseparator, -⟩ := needsRepair_eq_some hneeds
      rw [splitSeparator_last hbody] at hseparator
      rw [hrepaired, hseparator, List.append_nil]
      exact ⟨(h.one_line updated).1, h.nonempty updated⟩

/-- A repaired line needs no repair. -/
theorem needsRepair_repairedLine (h : Rereads serde) {line : List UInt8}
    (hpayload : ∀ value separator, needsRepair serde target line = some (value, separator) →
      ((value.get "payload").bind Json.asObject).isSome = true)
    (hline : (∃ body, newline ∉ body ∧ line = body ++ [newline]) ∨ newline ∉ line) :
    needsRepair serde target (repairedLine serde target line) = none := by
  rcases @repairedLine_cases serde target line with
    ⟨hsame, hnone | ⟨value, separator, hneeds, hnone⟩⟩ |
    ⟨value, separator, updated, hneeds, hupdated, hrepaired⟩
  · rw [hsame, hnone]
  · have hsome := (@withProvider_isSome target value).trans (hpayload value separator hneeds)
    rw [hnone] at hsome
    exact nomatch hsome
  · obtain ⟨-, hread, hseparator, htype, -⟩ := needsRepair_eq_some hneeds
    obtain ⟨hone, hreturn⟩ := h.one_line updated
    have hends : separator = [13, newline] ∨ separator = [newline] ∨ separator = [] := by
      rcases hline with ⟨body, -, rfl⟩ | hlast
      · rw [hseparator]
        exact (splitSeparator_line body).imp_right .inl
      · rw [hseparator, splitSeparator_last hlast]
        exact .inr (.inr rfl)
    by_contra hagain
    obtain ⟨⟨value', separator'⟩, hagain⟩ := Option.ne_none_iff_exists'.mp hagain
    obtain ⟨-, hread', -, -, hprovider⟩ := needsRepair_eq_some hagain
    rw [hrepaired, splitSeparator_append hone hreturn hends] at hread'
    refine hprovider ?_
    rw [sessionMetaProvider_eq, h.texts updated value' (withProvider_ordered (h.ordered _ _ hread) hupdated) hread']
    exact textAt_withProvider hupdated

/-! ## What the preview accepts -/

/-- A line of the file and what it is in the repaired file: the same bytes, or the record with the target
as its provider. -/
inductive RepairedLine (serde : Json.Serde) (target : String) : List UInt8 → List UInt8 → Prop
  | same {line : List UInt8} : needsRepair serde target line = none → RepairedLine serde target line line
  | rewritten {line separator : List UInt8} {value updated : Json} :
      needsRepair serde target line = some (value, separator) → withProvider value target = some updated →
      RepairedLine serde target line (utf8 (serde.toString updated) ++ separator)

/-- What the scan does not ask: every record to rewrite has a payload object, and with the target written
in the first line and the file are not too large. -/
structure Repairable (serde : Json.Serde) (target : String) (content : List UInt8) : Prop where
  payloads : HavePayloads serde target (linesOf content)
  head : ∀ line, (linesOf content).head? = some line →
    (repairedLine serde target line).length ≤ maxRolloutHeaderBytes
  size : ((linesOf content).flatMap (repairedLine serde target)).length ≤ maxRolloutBytes

/-- The lines of a file end where the next one starts. -/
theorem linesOf_ends {content line : List UInt8} (h : line ∈ linesOf content) :
    (∃ body, newline ∉ body ∧ line = body ++ [newline]) ∨ newline ∉ line := by
  unfold linesOf at h
  induction content using lines_induction newline with
  | nil => exact nomatch h
  | line body rest hbody ih =>
    rw [splitInclusive_append hbody] at h
    rcases List.mem_cons.mp h with rfl | hrest
    · exact .inl ⟨body, hbody, rfl⟩
    · exact ih hrest
  | last body hbody hne =>
    rw [splitInclusive_of_not_mem hbody hne] at h
    rw [List.mem_singleton.mp h]
    exact .inr hbody

variable {sha256 : List UInt8 → List UInt8} {snapshot : RolloutSnapshot}

/-- What a scan finds. -/
theorem scanRollout_ok_iff {path : String} {content : List UInt8}
    :
    scanRollout serde sha256 path content target = .ok snapshot ↔
      content.length ≤ maxRolloutBytes ∧ HeadFits content ∧
        snapshot = ⟨path, hexEncode (sha256 content),
          ((linesOf content).filter fun line => (needsRepair serde target line).isSome).length⟩ := by
  unfold scanRollout
  by_cases hsize : maxRolloutBytes < content.length
  · rw [if_pos hsize]
    exact ⟨nofun, fun h => absurd h.1 (Nat.not_le.mpr hsize)⟩
  · rw [if_neg hsize, bind_eq_ok]
    constructor
    · rintro ⟨metadata, hread, hsnapshot⟩
      obtain ⟨hfits, hhead, rfl⟩ := readSessionMetadata_ok_iff.mp hread
      rw [sessionMetaReplacements_recordsFrom, length_replacementsFrom] at hsnapshot
      exact ⟨hfits, hhead, (Except.ok.inj hsnapshot).symm⟩
    · rintro ⟨hfits, hhead, rfl⟩
      refine ⟨_, readSessionMetadata_ok_iff.mpr ⟨hfits, hhead, rfl⟩, ?_⟩
      rw [sessionMetaReplacements_recordsFrom, length_replacementsFrom]

/-- A file that is listed is rewritten when its records have payloads. -/
theorem rewriteRollout_ok_iff {path : String} {content output : List UInt8}
    (hscan : scanRollout serde sha256 path content target = .ok snapshot)
    (hlisted : 0 < snapshot.records) :
    rewriteRollout serde content target snapshot.records = .ok output ↔
      HavePayloads serde target (linesOf content) ∧
        output = (linesOf content).flatMap (repairedLine serde target) := by
  obtain ⟨hfits, hhead, rfl⟩ := scanRollout_ok_iff.mp hscan
  have hlength := @length_replacementsFrom serde target 0 (linesOf content)
  have hsome : ¬ (replacementsFrom serde target 0 (linesOf content) = [] ∨
      (replacementsFrom serde target 0 (linesOf content)).length ≠
        ((linesOf content).filter fun line => (needsRepair serde target line).isSome).length) := by
    rw [hlength, ← List.length_eq_zero_iff, hlength]
    exact fun h => h.elim (Nat.ne_of_gt hlisted) (absurd rfl)
  have hlines := @rewriteFrom_lines serde target content (linesOf content) 0 []
    (flatten_splitInclusive content).symm output
  rw [List.length_nil, Nat.zero_add, List.nil_append] at hlines
  rw [rewriteRollout, readSessionMetadata_ok_iff.mpr ⟨hfits, hhead, rfl⟩, ← hlines]
  show (if sessionMetaReplacements _ target = [] ∨ _ then _ else _) = _ ↔ _
  rw [sessionMetaReplacements_recordsFrom, if_neg hsome]

/-- What the preview lists is repaired, and nothing is left to repair, exactly when it is `Repairable`. -/
theorem repair_iff (h : Rereads serde) {sha256 : List UInt8 → List UInt8} {path : String}
    {content : List UInt8} {snapshot : RolloutSnapshot}
    (hscan : scanRollout serde sha256 path content target = .ok snapshot) (hlisted : 0 < snapshot.records) :
    (∃ output, rewriteRollout serde content target snapshot.records = .ok output ∧
      List.Forall₂ (RepairedLine serde target) (linesOf content) (linesOf output) ∧
      ((linesOf content).filter fun line => (needsRepair serde target line).isSome).length =
        snapshot.records ∧
      ∃ snapshot', scanRollout serde sha256 path output target = .ok snapshot' ∧ snapshot'.records = 0) ↔
    Repairable serde target content := by
  have hlines : linesOf ((linesOf content).flatMap (repairedLine serde target)) =
      (linesOf content).map (repairedLine serde target) :=
    (repairedLine_keepsLines h).splitInclusive_flatMap content
  constructor
  · rintro ⟨output, hwritten, -, -, snapshot', hscan', -⟩
    obtain ⟨hpayloads, rfl⟩ := (rewriteRollout_ok_iff hscan hlisted).mp hwritten
    obtain ⟨hsize, hhead, -⟩ := scanRollout_ok_iff.mp hscan'
    refine ⟨hpayloads, fun line hline => hhead _ ?_, hsize⟩
    rw [hlines, List.head?_map, hline]
    rfl
  · rintro ⟨hpayloads, hhead, hsize⟩
    refine ⟨_, (rewriteRollout_ok_iff hscan hlisted).mpr ⟨hpayloads, rfl⟩, ?_, ?_, ?_⟩
    · rw [hlines, List.forall₂_map_right_iff, List.forall₂_same]
      intro line hline
      rcases @repairedLine_cases serde target line with
        ⟨hsame, hnone | ⟨value, separator, hneeds, hnone⟩⟩ |
        ⟨value, separator, updated, hneeds, hupdated, hrepaired⟩
      · rw [hsame]
        exact .same hnone
      · have hsome := (@withProvider_isSome target value).trans (hpayloads line hline value separator hneeds)
        rw [hnone] at hsome
        exact nomatch hsome
      · rw [hrepaired]
        exact .rewritten hneeds hupdated
    · obtain ⟨-, -, rfl⟩ := scanRollout_ok_iff.mp hscan
      rfl
    · refine ⟨_, scanRollout_ok_iff.mpr ⟨hsize, fun line hline => ?_, rfl⟩, ?_⟩
      · rw [hlines, List.head?_map] at hline
        obtain ⟨first, hfirst, rfl⟩ := Option.map_eq_some_iff.mp hline
        exact hhead first hfirst
      · show (List.filter _ _).length = 0
        rw [hlines, List.length_eq_zero_iff, List.filter_eq_nil_iff]
        rintro line' hline'
        obtain ⟨line, hline, rfl⟩ := List.mem_map.mp hline'
        rw [needsRepair_repairedLine h (hpayloads line hline) (linesOf_ends hline)]
        exact Bool.false_ne_true

end

/-! ## Samples -/

def bareMeta : Json := .object [("type", .string "session_meta")]

def emptyMeta : Json := .object [("payload", .object []), ("type", .string "session_meta")]

def openaiMeta : Json := .object [("payload", .object [("model_provider", .string "openai")]),
  ("type", .string "session_meta")]

def bareText : String := "\x7b\"type\":\"session_meta\"\x7d"

def emptyText : String := "\x7b\"payload\":\x7b\x7d,\"type\":\"session_meta\"\x7d"

def openaiText : String := "\x7b\"payload\":\x7b\"model_provider\":\"openai\"\x7d,\"type\":\"session_meta\"\x7d"

/-- A parser that knows three texts, and a printer of the last of them. -/
def metaSerde : Json.Serde where
  fromSlice := (Json.Serde.ofTexts [(bareText, bareMeta), (emptyText, emptyMeta), (openaiText, openaiMeta)]).fromSlice
  toString value := if value = openaiMeta then openaiText else "null"

/-- The SHA-256 digest of `bareText`. -/
def bareDigest : List UInt8 := [0x4b, 0xd0, 0x61, 0xb1, 0xc4, 0xcc, 0x26, 0xfb, 0xec, 0xaa, 0x52, 0xfa,
  0xa9, 0x4a, 0x2a, 0xed, 0x9f, 0x34, 0x2e, 0x19, 0xe0, 0xea, 0x65, 0x1f, 0x4e, 0x4b, 0xc7, 0x56,
  0xc4, 0x95, 0x03, 0xe1]

/-- The SHA-256 digest of `emptyText` and a newline. -/
def emptyDigest : List UInt8 := [0x7d, 0x36, 0xb1, 0xbb, 0x58, 0x29, 0x70, 0x9b, 0x28, 0xe0, 0xcf, 0x51,
  0x4c, 0x11, 0xac, 0x4e, 0x04, 0xe5, 0x99, 0xcc, 0xb0, 0x7c, 0xf9, 0xde, 0x38, 0x7b, 0xb3, 0x23,
  0xb8, 0xdb, 0x4d, 0x1c]

/-- The SHA-256 digest of `openaiText` and a newline. -/
def openaiDigest : List UInt8 := [0x29, 0xa4, 0xb3, 0x51, 0x02, 0x75, 0x3b, 0x17, 0x2d, 0x16, 0x54, 0xd6,
  0xf8, 0x11, 0xd9, 0x34, 0xbf, 0x8a, 0x2f, 0x28, 0x5e, 0x21, 0x63, 0x2f, 0x5c, 0xd3, 0x48, 0xb9,
  0x4e, 0xba, 0xec, 0xcf]

def metaSha256 (bytes : List UInt8) : List UInt8 :=
  if bytes.length = 23 then bareDigest else if bytes.length = 37 then emptyDigest else openaiDigest

def emptyContent : List UInt8 := utf8 emptyText ++ [newline]

def emptySnapshot : RolloutSnapshot where
  path := "sessions/rollout-test.jsonl"
  hash := hexEncode emptyDigest
  records := 1

theorem metaSerde_fromSlice (text : String) : metaSerde.fromSlice (utf8 text) =
    ([(bareText, bareMeta), (emptyText, emptyMeta), (openaiText, openaiMeta)].find? fun entry => entry.1 = text).map
      Prod.snd :=
  Json.Serde.fromStr_ofTexts _ _

/-- What is known of the texts. -/
theorem metaSerde_texts :
    (∀ text ∈ [openaiText, "null"], utf8 text ≠ [] ∧ newline ∉ utf8 text ∧ 13 ∉ utf8 text) ∧
    metaSerde.fromSlice (utf8 openaiText) = some openaiMeta ∧ metaSerde.fromSlice (utf8 "null") = none := by
  rw [metaSerde_fromSlice, metaSerde_fromSlice]
  refine ⟨fun text hmem => ?_, by decide +kernel, by decide +kernel⟩
  rcases List.mem_pair.mp hmem with rfl | rfl
  · rw [show utf8 openaiText = _ from utf8_ofList _]
    decide +kernel
  · decide +kernel

/-- What the scan and the repair see in the file of `emptyText`, and what they make of the file of `bareText`. -/
theorem metaSerde_runs :
    (linesOf emptyContent = [emptyContent] ∧
      needsRepair metaSerde "openai" emptyContent = some (emptyMeta, [newline]) ∧
      scanRollout metaSerde metaSha256 "sessions/rollout-test.jsonl" emptyContent "openai" = .ok emptySnapshot) ∧
    scanRollout metaSerde metaSha256 "sessions/rollout-test.jsonl" (utf8 bareText) "openai" =
        .ok ⟨"sessions/rollout-test.jsonl", hexEncode bareDigest, 1⟩ ∧
      rewriteRollout metaSerde (utf8 bareText) "openai" 1 = .error "ChatGPT session metadata is invalid" := by
  decide +kernel

theorem length_repairedLine_empty : (repairedLine metaSerde "openai" emptyContent).length = 62 := by
  rw [repairedLine, metaSerde_runs.1.2.1]
  show (utf8 openaiText ++ [newline]).length = 62
  rw [show utf8 openaiText = _ from utf8_ofList _]
  decide +kernel

theorem metaSerde_rereads : Rereads metaSerde := by
  obtain ⟨hlines, hopenai, hnull⟩ := metaSerde_texts
  have hprinted : ∀ value, metaSerde.toString value ∈ [openaiText, "null"] := by
    intro value
    show (if value = openaiMeta then openaiText else "null") ∈ _
    split <;> simp
  refine ⟨fun bytes value hread => ?_, fun value => (hlines _ (hprinted value)).1,
    fun value => (hlines _ (hprinted value)).2, fun value value' _ hread => ?_⟩
  · obtain ⟨⟨text, value'⟩, hfound, rfl⟩ := Option.map_eq_some_iff.mp hread
    have hmem := List.mem_of_find?_eq_some hfound
    simp only [List.mem_cons, Prod.mk.injEq, List.not_mem_nil, or_false] at hmem
    rcases hmem with ⟨-, rfl⟩ | ⟨-, rfl⟩ | ⟨-, rfl⟩
    · exact .object (by simp) (by simp [Json.Ordered.string])
    · exact .object (by decide) (by simp [Json.Ordered.string, Json.Ordered.object])
    · exact .object (by decide) (by simp [Json.Ordered.string, Json.Ordered.object])
  · by_cases hvalue : value = openaiMeta
    · have hprint : metaSerde.toString value = openaiText := if_pos hvalue
      rw [hprint, hopenai] at hread
      rw [← Option.some.inj hread, hvalue]
      exact fun _ => rfl
    · have hprint : metaSerde.toString value = "null" := if_neg hvalue
      rw [hprint, hnull] at hread
      exact nomatch hread

/-- A record that names no provider yet is repaired. -/
theorem empty_payload_repaired : ∃ output,
    rewriteRollout metaSerde emptyContent "openai" 1 = .ok output ∧
    List.Forall₂ (RepairedLine metaSerde "openai") (linesOf emptyContent) (linesOf output) ∧
    ((linesOf emptyContent).filter fun line => (needsRepair metaSerde "openai" line).isSome).length = 1 ∧
    ∃ snapshot', scanRollout metaSerde metaSha256 "sessions/rollout-test.jsonl" output "openai" = .ok snapshot' ∧
      snapshot'.records = 0 := by
  obtain ⟨hlines, hneeds, hscan⟩ := metaSerde_runs.1
  have hlength := length_repairedLine_empty
  refine (repair_iff metaSerde_rereads hscan (by decide)).mpr ⟨?_, ?_, ?_⟩
  · intro line hline value separator hvalue
    rw [hlines, List.mem_singleton] at hline
    rw [hline, hneeds] at hvalue
    rw [← (Prod.mk.inj (Option.some.inj hvalue)).1]
    rfl
  · intro line hline
    rw [hlines] at hline
    rw [← Option.some.inj hline, hlength]
    decide
  · rw [hlines, List.flatMap_singleton, hlength]
    decide

/-- A record without a payload is counted, and the file is not rewritten. -/
theorem bare_record_refused :
    scanRollout metaSerde metaSha256 "sessions/rollout-test.jsonl" (utf8 bareText) "openai" =
        .ok ⟨"sessions/rollout-test.jsonl", hexEncode bareDigest, 1⟩ ∧
      rewriteRollout metaSerde (utf8 bareText) "openai" 1 = .error "ChatGPT session metadata is invalid" :=
  metaSerde_runs.2

end Zenith.Profiles.History
