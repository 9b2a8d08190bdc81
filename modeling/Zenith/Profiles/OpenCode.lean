import Mathlib
import Zenith.Lib.AsciiCase
import Zenith.Lib.Json
import Zenith.Lib.Jsonc

/-!
# The configuration of OpenCode

`parse_jsonc` of `local_pool/commands/opencode.rs`: one pass over the text takes out its comments, a second one the
commas before a bracket, and what is left goes to `serde_json`, which is `fromStr` here. Both passes watch for strings
in the same way (`Keeps`).
-/

namespace Zenith.Profiles.OpenCode

open Zenith.Jsonc Zenith.Text

/-! ## The passes -/

/-- Where a pass is: `in_string` and `escaped`. -/
inductive Scan
  | code
  | string (escaped : Bool)
deriving DecidableEq, Repr

def Scan.next : Scan → Char → Scan
  | .code, ch => if ch = '"' then .string false else .code
  | .string true, _ => .string false
  | .string false, ch => if ch = '\\' then .string true else if ch = '"' then .code else .string false

/-- The first pass may also be in a comment. -/
inductive Mode
  | scan (scan : Scan)
  | line
  | block (previous : Char)
deriving DecidableEq, Repr

/-- The text without comments. Their line breaks stay. -/
def stripComments : Mode → List Char → List Char
  | _, [] => []
  | .scan .code, '/' :: '/' :: chars => stripComments .line chars
  | .scan .code, '/' :: '*' :: chars => stripComments (.block '\x00') chars
  | .scan scan, ch :: chars => ch :: stripComments (.scan (scan.next ch)) chars
  | .line, ch :: chars =>
    if ch = '\n' then '\n' :: stripComments (.scan .code) chars else stripComments .line chars
  | .block previous, ch :: chars =>
    if previous = '*' ∧ ch = '/' then stripComments (.scan .code) chars
    else if ch = '\n' then '\n' :: stripComments (.block ch) chars
    else stripComments (.block ch) chars

/-- Whether a closing bracket is next. -/
def closes (chars : List Char) : Bool :=
  match chars.dropWhile isWhitespace with
  | ch :: _ => ch = '\x7d' || ch = ']'
  | [] => false

/-- The text without commas before a closing bracket. -/
def dropTrailingCommas : Scan → List Char → List Char
  | _, [] => []
  | scan, ch :: chars =>
    if scan = .code ∧ ch = ',' ∧ closes chars = true then dropTrailingCommas .code chars
    else ch :: dropTrailingCommas (scan.next ch) chars

/-- What is handed to `serde_json`. -/
def cleaned (content : List Char) : List Char :=
  dropTrailingCommas .code (stripComments (.scan .code) content)

def parseJsonc (fromStr : String → Option Json) (content : String) : Option Json :=
  fromStr (.ofList (cleaned content.toList))

attribute [local simp] stripComments dropTrailingCommas

/-! ## What both passes keep -/

/-- A pass that keeps strings, and everything else but slashes and commas. -/
structure Keeps (pass : Scan → List Char → List Char) : Prop where
  string : ∀ escaped ch chars, pass (.string escaped) (ch :: chars) = ch :: pass ((Scan.string escaped).next ch) chars
  code : ∀ ch chars, ch ≠ '/' → ch ≠ ',' → pass .code (ch :: chars) = ch :: pass (Scan.code.next ch) chars

theorem keeps_stripComments : Keeps fun scan => stripComments (.scan scan) where
  string escaped ch chars := by rw [stripComments] <;> nofun
  code ch chars hslash _ := by
    rw [stripComments] <;> intro _ _ heq <;> exact absurd heq hslash

theorem keeps_dropTrailingCommas : Keeps dropTrailingCommas where
  string escaped ch chars := by rw [dropTrailingCommas, if_neg (fun h => nomatch h.1)]
  code ch chars _ hcomma := by rw [dropTrailingCommas, if_neg (fun h => hcomma h.2.1)]

variable {c : Char}

theorem inert_of_isSpace (h : isSpace c = true) : c ≠ '"' ∧ c ≠ '/' ∧ c ≠ ',' := by
  refine ⟨?_, ?_, ?_⟩ <;> rintro rfl <;> exact absurd h (by decide)

theorem inert_of_isBare (h : isBare c = true) : c ≠ '"' ∧ c ≠ '/' ∧ c ≠ ',' := by
  refine ⟨?_, ?_, ?_⟩ <;> rintro rfl <;> exact absurd h (by decide)

section
variable {pass : Scan → List Char → List Char}

/-- The quotes of a string are where the pass takes them to be. -/
theorem Keeps.content (hpass : Keeps pass) {content : List Char} (h : Closed content) (rest : List Char) :
    pass (.string false) (content ++ '"' :: rest) = content ++ '"' :: pass .code rest := by
  induction h with
  | nil => exact hpass.string false '"' rest
  | @char c cs hquote hslash _ ih =>
    rw [List.cons_append, hpass.string, Scan.next, if_neg hslash, if_neg hquote, ih, List.cons_append]
  | @escape c cs _ ih =>
    rw [List.cons_append, List.cons_append, hpass.string, Scan.next, if_pos rfl, hpass.string, Scan.next, ih,
      List.cons_append, List.cons_append]

/-- Characters that are no quotes, slashes or commas. -/
theorem Keeps.inert (hpass : Keeps pass) {chars : List Char} (h : ∀ c ∈ chars, c ≠ '"' ∧ c ≠ '/' ∧ c ≠ ',') (rest : List Char) :
    pass .code (chars ++ rest) = chars ++ pass .code rest := by
  induction chars with
  | nil => rfl
  | cons c cs ih =>
    obtain ⟨⟨hquote, hslash, hcomma⟩, hcs⟩ := List.forall_mem_cons.mp h
    rw [List.cons_append, hpass.code c _ hslash hcomma, Scan.next, if_neg hquote, ih hcs, List.cons_append]

theorem Keeps.spaces (hpass : Keeps pass) {chars : List Char} (h : Spaces chars) (rest : List Char) :
    pass .code (chars ++ rest) = chars ++ pass .code rest :=
  hpass.inert (fun c hc => inert_of_isSpace (h c hc)) rest

theorem Keeps.token (hpass : Keeps pass) {token : Token} (h : token.isComma = false) (rest : List Char) :
    pass .code (token.text ++ rest) = token.text ++ pass .code rest := by
  cases token with
  | word w => exact hpass.inert (fun c hc => inert_of_isBare (w.bare c hc)) rest
  | string literal =>
    rw [Token.text, List.append_assoc, List.cons_append, List.singleton_append,
      hpass.code '"' _ (by decide) (by decide), Scan.next, if_pos rfl, hpass.content literal.closed,
      List.append_assoc, List.singleton_append, List.cons_append]
  | comma => exact nomatch h
  | _ => exact hpass.code _ rest (by decide) (by decide)

end

/-! ## The first pass -/

variable {comment : List Char}

theorem stripComments_line (h : '\n' ∉ comment) (rest : List Char) :
    stripComments .line (comment ++ '\n' :: rest) = '\n' :: stripComments (.scan .code) rest := by
  induction comment with
  | nil => rfl
  | cons c cs ih =>
    obtain ⟨hc, hcs⟩ := not_or.mp (List.mem_cons.not.mp h)
    rw [List.cons_append, stripComments, if_neg (Ne.symm hc), ih hcs]

theorem stripComments_openLine (h : '\n' ∉ comment) : stripComments .line comment = [] := by
  induction comment with
  | nil => rfl
  | cons c cs ih =>
    obtain ⟨hc, hcs⟩ := not_or.mp (List.mem_cons.not.mp h)
    rw [stripComments, if_neg (Ne.symm hc), ih hcs]

/-- A block comment ends at its first `*/`; its line breaks are kept. -/
theorem stripComments_block {previous : Char} (h : ¬['*', '/'] <:+: previous :: comment)
    (rest : List Char) :
    stripComments (.block previous) (comment ++ '*' :: '/' :: rest) =
      comment.filter (· = '\n') ++ stripComments (.scan .code) rest := by
  induction comment generalizing previous with
  | nil =>
    rw [List.nil_append, stripComments, if_neg (fun h => absurd h.2 (by decide)), if_neg (by decide), stripComments,
      if_pos ⟨rfl, rfl⟩]
    rfl
  | cons c cs ih =>
    have hclose : ¬(previous = '*' ∧ c = '/') := by
      rintro ⟨rfl, rfl⟩
      exact h ⟨[], cs, rfl⟩
    have hcs : ¬['*', '/'] <:+: c :: cs := fun hwithin => h (hwithin.trans (List.suffix_cons previous (c :: cs)).isInfix)
    rw [List.cons_append, stripComments, if_neg hclose, ih hcs]
    by_cases hc : c = '\n'
    · rw [if_pos hc, hc, List.filter_cons_of_pos (by decide), List.cons_append]
    · rw [if_neg hc, List.filter_cons_of_neg (by simpa using hc)]

/-- Of what stands between tokens, white space is left. -/
theorem stripComments_filler {gap : List Char} (h : Filler gap) :
    ∃ spaces, Spaces spaces ∧ ∀ rest, stripComments (.scan .code) (gap ++ rest) = spaces ++ stripComments (.scan .code) rest := by
  induction h with
  | nil => exact ⟨[], fun _ h => absurd h List.not_mem_nil, fun _ => rfl⟩
  | @space c cs hc _ ih =>
    obtain ⟨spaces, hspaces, hstrip⟩ := ih
    refine ⟨c :: spaces, List.forall_mem_cons.mpr ⟨hc, hspaces⟩, fun rest => ?_⟩
    have hone := @Keeps.spaces _ keeps_stripComments [c] (List.forall_mem_singleton.mpr hc) (cs ++ rest)
    rw [List.cons_append]
    exact hone.trans (congrArg (c :: ·) (hstrip rest))
  | @line comment cs hcomment _ ih =>
    obtain ⟨spaces, hspaces, hstrip⟩ := ih
    refine ⟨'\n' :: spaces, List.forall_mem_cons.mpr ⟨rfl, hspaces⟩, fun rest => ?_⟩
    rw [List.cons_append, List.cons_append, List.append_assoc, List.cons_append, stripComments,
      stripComments_line hcomment, hstrip, List.cons_append]
  | @block comment cs hcomment _ ih =>
    obtain ⟨spaces, hspaces, hstrip⟩ := ih
    have hbreaks : Spaces (comment.filter (· = '\n')) := by
      intro c hc
      rw [of_decide_eq_true (List.mem_filter.mp hc).2]
      rfl
    have hstart : ¬['*', '/'] <:+: '\x00' :: comment := by
      intro hwithin
      rcases List.infix_cons_iff.mp hwithin with hprefix | hwithin
      · exact absurd (List.cons_prefix_cons.mp hprefix).1 (by decide)
      · exact hcomment hwithin
    refine ⟨comment.filter (· = '\n') ++ spaces, ?_, fun rest => ?_⟩
    · exact List.forall_mem_append.mpr ⟨hbreaks, hspaces⟩
    · rw [List.cons_append, List.cons_append, List.append_assoc, List.cons_append, List.cons_append, stripComments,
        stripComments_block hstart, hstrip, List.append_assoc]

variable {last : List Char}

theorem stripComments_lastFiller (h : LastFiller last) : Spaces (stripComments (.scan .code) last) := by
  cases h with
  | filler h =>
    obtain ⟨spaces, hspaces, hstrip⟩ := stripComments_filler h
    have hlast := hstrip []
    rw [List.append_nil, stripComments, List.append_nil] at hlast
    rwa [hlast]
  | @line cs comment h hcomment =>
    obtain ⟨spaces, hspaces, hstrip⟩ := stripComments_filler h
    rw [hstrip, stripComments, stripComments_openLine hcomment, List.append_nil]
    exact hspaces

theorem stripComments_token (token : Token) (rest : List Char) :
    stripComments (.scan .code) (token.text ++ rest) = token.text ++ stripComments (.scan .code) rest := by
  cases token with
  | comma => rfl
  | _ => exact keeps_stripComments.token rfl rest

variable {pieces : List (List Char × Token)}

/-- The first pass leaves the tokens, with white space between them. -/
theorem stripComments_lay (hgaps : ∀ piece ∈ pieces, Filler piece.1)
    (hlast : LastFiller last) : Laid Spaces Spaces (pieces.map Prod.snd) (stripComments (.scan .code) (lay pieces last)) := by
  induction pieces with
  | nil => exact ⟨[], stripComments (.scan .code) last, nofun, stripComments_lastFiller hlast, rfl, rfl⟩
  | cons piece pieces ih =>
    obtain ⟨gap, token⟩ := piece
    obtain ⟨hgap, hgaps⟩ := List.forall_mem_cons.mp hgaps
    obtain ⟨spaces, hspaces, hstrip⟩ := stripComments_filler hgap
    obtain ⟨pieces', last', hpieces', hlast', htokens, hlay⟩ := ih hgaps
    refine ⟨(spaces, token) :: pieces', last', List.forall_mem_cons.mpr ⟨hspaces, hpieces'⟩, hlast', ?_, ?_⟩
    · rw [List.map_cons, List.map_cons, htokens]
    · rw [lay_cons, hstrip, stripComments_token, hlay, lay_cons]

/-! ## The second pass -/

theorem isWhitespace_of_isSpace (h : isSpace c = true) : isWhitespace c = true := by
  simp only [isSpace, Bool.or_eq_true, decide_eq_true_eq] at h
  rcases h with ((rfl | rfl) | rfl) | rfl <;> decide

theorem toNat_of_isBare (h : isBare c = true) : 43 ≤ c.toNat ∧ c.toNat ≤ 122 := by
  simp only [isBare, Bool.or_eq_true, decide_eq_true_eq] at h
  rcases h with ((h | rfl) | rfl) | rfl
  · exact ⟨le_trans (by decide) (toNat_of_isAlphanum h).1, (toNat_of_isAlphanum h).2⟩
  all_goals decide

theorem not_isWhitespace_of_isBare (h : isBare c = true) : isWhitespace c = false := by
  obtain ⟨hlow, hhigh⟩ := toNat_of_isBare h
  simp only [isWhitespace, Bool.or_eq_false_iff, Bool.and_eq_false_iff, decide_eq_false_iff_not, beq_eq_false_iff_ne]
  omega

theorem closes_cons (h : isWhitespace c = false) (cs : List Char) :
    closes (c :: cs) = (c = '\x7d' || c = ']') := by
  rw [closes, List.dropWhile_cons_of_neg (ne_true_of_eq_false h)]

/-- The first character of a token tells whether it closes something. -/
theorem closes_token (token : Token) (rest : List Char) : closes (token.text ++ rest) = token.isEnd := by
  cases token with
  | word w =>
    obtain ⟨c, cs, htext⟩ := List.exists_cons_of_ne_nil w.nonempty
    have hbare := w.bare c (htext ▸ List.mem_cons_self)
    have hclose : (decide (c = '\x7d') || decide (c = ']')) = false := by
      rw [Bool.or_eq_false_iff, decide_eq_false_iff_not, decide_eq_false_iff_not]
      constructor <;> rintro rfl <;> exact absurd hbare (by decide)
    rw [Token.text, htext, List.cons_append, closes_cons (not_isWhitespace_of_isBare hbare), hclose]
    rfl
  | _ => exact closes_cons (by decide) _

theorem closes_spaces {spaces : List Char} (h : Spaces spaces) (rest : List Char) : closes (spaces ++ rest) = closes rest := by
  rw [closes, List.dropWhile_append_of_pos fun c hc => isWhitespace_of_isSpace (h c hc), ← closes]

theorem closes_lay (hgaps : ∀ piece ∈ pieces, Spaces piece.1)
    (hlast : Spaces last) : closes (lay pieces last) = (pieces.map Prod.snd).head?.any Token.isEnd := by
  cases pieces with
  | nil =>
    have hclose := closes_spaces hlast []
    rw [List.append_nil] at hclose
    exact hclose
  | cons piece pieces =>
    obtain ⟨gap, token⟩ := piece
    rw [lay_cons, closes_spaces (List.forall_mem_cons.mp hgaps).1, closes_token]
    rfl

theorem dropTrailingCommas_comma (rest : List Char) :
    dropTrailingCommas .code (',' :: rest) =
      if closes rest = true then dropTrailingCommas .code rest else ',' :: dropTrailingCommas .code rest := by
  rw [dropTrailingCommas]
  by_cases h : closes rest = true
  · rw [if_pos ⟨rfl, rfl, h⟩, if_pos h]
  · rw [if_neg fun hcloses => h hcloses.2.2, if_neg h]
    rfl

theorem eq_comma_of_isComma {token : Token} (h : token.isComma = true) : token = .comma := by
  cases token with
  | comma => rfl
  | _ => exact nomatch h

variable {tokens : List Token}

/-- White space before a text goes to the first gap. -/
theorem laid_spaces {spaces text : List Char} (hspaces : Spaces spaces) (h : Laid Spaces Spaces tokens text) :
    Laid Spaces Spaces tokens (spaces ++ text) := by
  obtain ⟨pieces, last, hgaps, hlast, htokens, rfl⟩ := h
  cases pieces with
  | nil => exact ⟨[], spaces ++ last, nofun, List.forall_mem_append.mpr ⟨hspaces, hlast⟩, htokens, rfl⟩
  | cons piece pieces =>
    obtain ⟨gap, token⟩ := piece
    obtain ⟨hgap, hgaps⟩ := List.forall_mem_cons.mp hgaps
    refine ⟨(spaces ++ gap, token) :: pieces, last, List.forall_mem_cons.mpr ⟨?_, hgaps⟩, hlast, htokens, ?_⟩
    · exact List.forall_mem_append.mpr ⟨hspaces, hgap⟩
    · rw [lay_cons, lay_cons, List.append_assoc]

theorem laid_cons {gap text : List Char} {token : Token} (hgap : Spaces gap)
    (h : Laid Spaces Spaces tokens text) : Laid Spaces Spaces (token :: tokens) (gap ++ (token.text ++ text)) := by
  obtain ⟨pieces, last, hgaps, hlast, rfl, rfl⟩ := h
  exact ⟨(gap, token) :: pieces, last, List.forall_mem_cons.mpr ⟨hgap, hgaps⟩, hlast, rfl, (lay_cons gap token pieces last).symm⟩

/-- The second pass takes out the trailing commas, and no other token. -/
theorem dropTrailingCommas_lay (hgaps : ∀ piece ∈ pieces, Spaces piece.1)
    (hlast : Spaces last) :
    Laid Spaces Spaces (dropTrailing (pieces.map Prod.snd)) (dropTrailingCommas .code (lay pieces last)) := by
  induction pieces with
  | nil =>
    have hkeep := keeps_dropTrailingCommas.spaces hlast []
    rw [List.append_nil, dropTrailingCommas, List.append_nil] at hkeep
    exact ⟨[], last, nofun, hlast, rfl, hkeep⟩
  | cons piece pieces ih =>
    obtain ⟨gap, token⟩ := piece
    obtain ⟨hgap, hrest⟩ := List.forall_mem_cons.mp hgaps
    rw [lay_cons, keeps_dropTrailingCommas.spaces hgap, List.map_cons]
    cases hcomma : token.isComma with
    | false =>
      rw [keeps_dropTrailingCommas.token hcomma, dropTrailing_cons (.inl hcomma)]
      exact laid_cons hgap (ih hrest)
    | true =>
      obtain rfl := eq_comma_of_isComma hcomma
      have hcloses := closes_lay hrest hlast
      rw [Token.text, List.singleton_append, dropTrailingCommas_comma, hcloses, dropTrailing]
      by_cases hend : ((pieces.map Prod.snd).head?.any Token.isEnd) = true
      · rw [if_pos hend, if_pos ⟨rfl, hend⟩]
        exact laid_spaces hgap (ih hrest)
      · rw [if_neg hend, if_neg fun h => hend h.2]
        exact laid_cons hgap (ih hrest)

/-! ## Plain texts -/

theorem stripComments_plain (hgaps : ∀ piece ∈ pieces, Spaces piece.1)
    (hlast : Spaces last) : stripComments (.scan .code) (lay pieces last) = lay pieces last := by
  induction pieces with
  | nil =>
    have hkeep := keeps_stripComments.spaces hlast []
    rw [List.append_nil] at hkeep
    exact hkeep.trans (List.append_nil last)
  | cons piece pieces ih =>
    obtain ⟨gap, token⟩ := piece
    obtain ⟨hgap, hrest⟩ := List.forall_mem_cons.mp hgaps
    rw [lay_cons, keeps_stripComments.spaces hgap, stripComments_token, ih hrest]

theorem length_dropTrailing_le (tokens : List Token) : (dropTrailing tokens).length ≤ tokens.length := by
  induction tokens with
  | nil => exact Nat.le_refl 0
  | cons token tokens ih =>
    rw [dropTrailing]
    split
    case isTrue => exact Nat.le_succ_of_le ih
    case isFalse => exact Nat.succ_le_succ ih

theorem dropTrailingCommas_plain (hgaps : ∀ piece ∈ pieces, Spaces piece.1)
    (hlast : Spaces last) (h : dropTrailing (pieces.map Prod.snd) = pieces.map Prod.snd) :
    dropTrailingCommas .code (lay pieces last) = lay pieces last := by
  induction pieces with
  | nil =>
    have hkeep := keeps_dropTrailingCommas.spaces hlast []
    rw [List.append_nil] at hkeep
    exact hkeep.trans (List.append_nil last)
  | cons piece pieces ih =>
    obtain ⟨gap, token⟩ := piece
    obtain ⟨hgap, hrest⟩ := List.forall_mem_cons.mp hgaps
    rw [List.map_cons, dropTrailing] at h
    split at h
    case isTrue =>
      have hlength := length_dropTrailing_le (pieces.map Prod.snd)
      rw [h] at hlength
      exact absurd hlength (Nat.not_succ_le_self _)
    case isFalse hkept =>
      have hrecord := ih hrest (List.cons.inj h).2
      rw [lay_cons, keeps_dropTrailingCommas.spaces hgap]
      cases hcomma : token.isComma with
      | false => rw [keeps_dropTrailingCommas.token hcomma, hrecord]
      | true =>
        obtain rfl := eq_comma_of_isComma hcomma
        have hopen : ¬closes (lay pieces last) = true := by
          rw [closes_lay hrest hlast]
          exact fun hend => hkept ⟨rfl, hend⟩
        rw [Token.text, List.singleton_append, dropTrailingCommas_comma, if_neg hopen, hrecord]

/-! ## Documents -/

variable {text : List Char}

/-- Of a text with comments, both passes leave a plain text: every word and string is in it as it was. -/
theorem plain_cleaned {document : Jsonc.Document} (h : CommentedText document text) :
    PlainText document (cleaned text) := by
  obtain ⟨pieces, last, hgaps, hlast, htokens, rfl⟩ := h
  obtain ⟨pieces', last', hgaps', hlast', htokens', hlay⟩ := stripComments_lay hgaps hlast
  have hdrop := dropTrailingCommas_lay hgaps' hlast'
  rwa [htokens', htokens, dropTrailing_tokens, ← hlay] at hdrop

theorem cleaned_plain {document : Jsonc.Document} (h : PlainText document text) : cleaned text = text := by
  obtain ⟨pieces, last, hgaps, hlast, htokens, rfl⟩ := h
  have hkept : dropTrailing (pieces.map Prod.snd) = pieces.map Prod.snd := by
    rw [htokens, dropTrailing_tokens]
  rw [cleaned, stripComments_plain hgaps hlast, dropTrailingCommas_plain hgaps hlast hkept]

/-- A JSON text is read as it is. A text with comments and trailing commas is read as the value that every JSON text of
the document has, and the text that is read for it is one of these. -/
theorem parse_jsonc_reads_comments (fromStr : String → Option Json) (document : Jsonc.Document) :
    (∀ text, PlainText document text → parseJsonc fromStr (.ofList text) = fromStr (.ofList text)) ∧
    (∀ text, CommentedText document text → PlainText document (cleaned text)) ∧
    ∀ value, (∀ text, PlainText document text → fromStr (.ofList text) = some value) →
      ∀ text, CommentedText document text → parseJsonc fromStr (.ofList text) = some value := by
  refine ⟨fun text h => ?_, fun text => plain_cleaned, fun value hvalue text h => ?_⟩
  · rw [parseJsonc, String.toList_ofList, cleaned_plain h]
  · rw [parseJsonc, String.toList_ofList]
    exact hvalue _ (plain_cleaned h)

/-! A configuration with one address, whose slashes are no comment. -/

def urlKey : Literal := ⟨"url".toList, .char (by decide) (by decide) (.char (by decide) (by decide)
  (.char (by decide) (by decide) .nil))⟩

def urlText : Literal := ⟨"a//b".toList, .char (by decide) (by decide) (.char (by decide) (by decide)
  (.char (by decide) (by decide) (.char (by decide) (by decide) .nil)))⟩

def urlDocument : Jsonc.Document := .object [(urlKey, .string urlText)] true

/-- A reader of this one document. -/
def readUrl (text : String) : Option Json :=
  if text.toList.filter (fun c => !isSpace c) = "\x7b\"url\":\"a//b\"\x7d".toList then
    some (.object [("url", .string "a//b")])
  else none

theorem filter_laid (h : Laid Spaces Spaces tokens text) :
    text.filter (fun c => !isSpace c) = (tokens.flatMap Token.text).filter fun c => !isSpace c := by
  obtain ⟨pieces, last, hgaps, hlast, rfl, rfl⟩ := h
  have hnone : ∀ {spaces : List Char}, Spaces spaces → spaces.filter (fun c => !isSpace c) = [] := by
    intro spaces hspaces
    exact List.filter_eq_nil_iff.mpr fun c hc hnot => by simp [hspaces c hc] at hnot
  induction pieces with
  | nil => exact hnone hlast
  | cons piece pieces ih =>
    obtain ⟨gap, token⟩ := piece
    obtain ⟨hgap, hrest⟩ := List.forall_mem_cons.mp hgaps
    rw [lay_cons, List.filter_append, List.filter_append, hnone hgap, ih hrest, List.map_cons, List.flatMap_cons,
      List.filter_append, List.nil_append]

theorem reads_commented_url :
    parseJsonc readUrl (.ofList "\x7b // kept\n\"url\": \"a//b\", /* , */ \x7d".toList) =
      some (.object [("url", .string "a//b")]) := by
  refine (parse_jsonc_reads_comments readUrl urlDocument).2.2 _ (fun text h => ?_) _ ?_
  · rw [readUrl, String.toList_ofList, filter_laid h, if_pos (by decide)]
  · refine ⟨[([], .objectStart), (" // kept\n".toList, .string urlKey), ([], .colon), (" ".toList, .string urlText),
      ([], .comma), (" /* , */ ".toList, .objectEnd)], [], ?_, .filler .nil, rfl, by decide⟩
    have hline : Filler " // kept\n".toList := .space rfl (@Filler.line " kept".toList [] (by decide) .nil)
    have hblock : Filler " /* , */ ".toList := .space rfl (@Filler.block " , ".toList [' '] (by decide) (.space rfl .nil))
    simp only [List.forall_mem_cons]
    exact ⟨.nil, hline, .nil, .space rfl .nil, .nil, hblock, nofun⟩

end Zenith.Profiles.OpenCode
