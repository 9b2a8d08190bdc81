import Mathlib
import Zenith.Lib.Text

/-!
# JSON with comments

The texts of JSON documents, with and without what people add to them. A `Document` is a JSON value with the spelling
of its words and strings, and says of each array and object whether a comma trails its last entry. A plain text of it
has only white space between its tokens, and none of those commas (`PlainText`); a commented text has them, and
comments besides (`CommentedText`).

`dropTrailing` is how the tokens of the one become those of the other (`dropTrailing_tokens`).
-/

namespace Zenith.Jsonc

/-! ## Tokens -/

def isSpace (c : Char) : Bool := c = ' ' || c = '\t' || c = '\n' || c = '\r'

/-- The characters of numbers, `true`, `false` and `null`. -/
def isBare (c : Char) : Bool := c.isAlphanum || c = '+' || c = '-' || c = '.'

structure Word where
  text : List Char
  nonempty : text ≠ []
  bare : ∀ c ∈ text, isBare c = true

/-- What can stand between the quotes of a string. -/
inductive Closed : List Char → Prop
  | nil : Closed []
  | char {c : Char} {cs : List Char} : c ≠ '"' → c ≠ '\\' → Closed cs → Closed (c :: cs)
  | escape (c : Char) {cs : List Char} : Closed cs → Closed ('\\' :: c :: cs)

structure Literal where
  content : List Char
  closed : Closed content

inductive Token
  | word (word : Word)
  | string (literal : Literal)
  | comma
  | colon
  | arrayStart
  | arrayEnd
  | objectStart
  | objectEnd

def Token.text : Token → List Char
  | .word w => w.text
  | .string literal => '"' :: literal.content ++ ['"']
  | .comma => [',']
  | .colon => [':']
  | .arrayStart => ['[']
  | .arrayEnd => [']']
  | .objectStart => ['\x7b']
  | .objectEnd => ['\x7d']

def Token.isComma : Token → Bool
  | .comma => true
  | _ => false

def Token.isEnd : Token → Bool
  | .arrayEnd | .objectEnd => true
  | _ => false

/-- The tokens without the commas that an end follows. -/
def dropTrailing : List Token → List Token
  | [] => []
  | token :: tokens =>
    if token.isComma ∧ tokens.head?.any Token.isEnd then dropTrailing tokens else token :: dropTrailing tokens

/-! ## Documents -/

inductive Document
  | word (word : Word)
  | string (literal : Literal)
  | array (items : List Document) (trailing : Bool)
  | object (members : List (Literal × Document)) (trailing : Bool)

def commaWhen (trailing : Bool) : List Token := if trailing then [.comma] else []

mutual

/-- The tokens of a document, with its trailing commas when `commas` is set. -/
def tokens (commas : Bool) : Document → List Token
  | .word w => [.word w]
  | .string literal => [.string literal]
  | .array items trailing =>
    .arrayStart ::
      ([Token.comma].intercalate (itemTokens commas items) ++ (commaWhen (commas && trailing) ++ [.arrayEnd]))
  | .object members trailing =>
    .objectStart ::
      ([Token.comma].intercalate (memberTokens commas members) ++ (commaWhen (commas && trailing) ++ [.objectEnd]))

def itemTokens (commas : Bool) : List Document → List (List Token)
  | [] => []
  | item :: items => tokens commas item :: itemTokens commas items

def memberTokens (commas : Bool) : List (Literal × Document) → List (List Token)
  | [] => []
  | (key, value) :: members => (.string key :: .colon :: tokens commas value) :: memberTokens commas members

end

section
variable {token : Token} {tokens tokens' rest : List Token}

theorem dropTrailing_cons (h : token.isComma = false ∨ rest.head?.any Token.isEnd = false) :
    dropTrailing (token :: rest) = token :: dropTrailing rest := by
  rw [dropTrailing, if_neg]
  rintro ⟨hcomma, hend⟩
  rcases h with h | h
  · exact absurd hcomma (ne_true_of_eq_false h)
  · exact absurd hend (ne_true_of_eq_false h)

theorem dropTrailing_comma (h : token.isEnd = true) : dropTrailing (.comma :: token :: rest) = dropTrailing (token :: rest) := by
  rw [dropTrailing, if_pos ⟨rfl, h⟩]

/-- `tokens` starts no end, and is `tokens'` without trailing commas, whatever follows. -/
structure Cleans (tokens tokens' : List Token) : Prop where
  start : ∀ rest, (tokens ++ rest).head?.any Token.isEnd = false
  drop : ∀ rest, dropTrailing (tokens ++ rest) = tokens' ++ dropTrailing rest

theorem cleans_singleton (hcomma : token.isComma = false) (hend : token.isEnd = false) : Cleans [token] [token] where
  start _ := hend
  drop _ := dropTrailing_cons (.inl hcomma)

theorem Cleans.cons (hcomma : token.isComma = false) (hend : token.isEnd = false) (h : Cleans tokens tokens') :
    Cleans (token :: tokens) (token :: tokens') where
  start _ := hend
  drop rest := by rw [List.cons_append, dropTrailing_cons (.inl hcomma), h.drop, List.cons_append]

/-- Entries with commas between them. -/
theorem drop_intercalate {entries entries' : List (List Token)} (h : List.Forall₂ Cleans entries entries') (rest : List Token) :
    dropTrailing ([Token.comma].intercalate entries ++ rest) =
      [Token.comma].intercalate entries' ++ dropTrailing rest := by
  induction h with
  | nil => rfl
  | @cons entry entry' entries entries' hentry hentries ih =>
    cases hentries with
    | nil =>
      rw [List.intercalate_singleton, List.intercalate_singleton, hentry.drop]
    | @cons second _ entries _ hsecond hentries =>
      rw [List.intercalate_cons_cons, List.intercalate_cons_cons, List.append_assoc, List.append_assoc, hentry.drop,
        List.singleton_append, dropTrailing_cons (.inr ?_), ih, List.append_assoc, List.append_assoc, List.singleton_append]
      cases entries with
      | nil =>
        rw [List.intercalate_singleton]
        exact hsecond.start rest
      | cons third entries =>
        rw [List.intercalate_cons_cons, List.append_assoc, List.append_assoc]
        exact hsecond.start _

theorem drop_commaWhen (trailing : Bool) (h : token.isEnd = true) (hcomma : token.isComma = false) (rest : List Token) :
    dropTrailing (commaWhen trailing ++ token :: rest) = token :: dropTrailing rest := by
  cases trailing with
  | false => exact dropTrailing_cons (.inl hcomma)
  | true => exact (dropTrailing_comma h).trans (dropTrailing_cons (.inl hcomma))

/-- An array or object. -/
theorem cleans_brackets {start stop : Token} (hstart : start.isComma = false ∧ start.isEnd = false)
    (hstop : stop.isComma = false ∧ stop.isEnd = true) {entries entries' : List (List Token)}
    (h : List.Forall₂ Cleans entries entries') (trailing : Bool) :
    Cleans (start :: ([Token.comma].intercalate entries ++ (commaWhen trailing ++ [stop])))
      (start :: ([Token.comma].intercalate entries' ++ [stop])) where
  start _ := hstart.2
  drop rest := by
    rw [List.cons_append, dropTrailing_cons (.inl hstart.1), List.append_assoc, drop_intercalate h, List.append_assoc,
      List.singleton_append, drop_commaWhen trailing hstop.2 hstop.1]
    simp

end

mutual

theorem cleans_tokens (commas : Bool) : ∀ document : Document, Cleans (tokens commas document) (tokens false document)
  | .word _ => cleans_singleton rfl rfl
  | .string _ => cleans_singleton rfl rfl
  | .array items trailing => cleans_brackets ⟨rfl, rfl⟩ ⟨rfl, rfl⟩ (cleans_items commas items) (commas && trailing)
  | .object members trailing =>
    cleans_brackets ⟨rfl, rfl⟩ ⟨rfl, rfl⟩ (cleans_members commas members) (commas && trailing)

theorem cleans_items (commas : Bool) :
    ∀ items : List Document, List.Forall₂ Cleans (itemTokens commas items) (itemTokens false items)
  | [] => .nil
  | item :: items => .cons (cleans_tokens commas item) (cleans_items commas items)

theorem cleans_members (commas : Bool) :
    ∀ members : List (Literal × Document), List.Forall₂ Cleans (memberTokens commas members) (memberTokens false members)
  | [] => .nil
  | (_, value) :: members =>
    .cons (((cleans_tokens commas value).cons rfl rfl).cons rfl rfl) (cleans_members commas members)

end

theorem dropTrailing_tokens (commas : Bool) (document : Document) :
    dropTrailing (tokens commas document) = tokens false document := by
  have hdrop := (cleans_tokens commas document).drop []
  rwa [List.append_nil, dropTrailing, List.append_nil] at hdrop

/-! ## Texts -/

/-- White space and comments. -/
inductive Filler : List Char → Prop
  | nil : Filler []
  | space {c : Char} {cs : List Char} : isSpace c = true → Filler cs → Filler (c :: cs)
  | line {comment cs : List Char} : '\n' ∉ comment → Filler cs → Filler ('/' :: '/' :: (comment ++ '\n' :: cs))
  | block {comment cs : List Char} : ¬['*', '/'] <:+: comment → Filler cs →
      Filler ('/' :: '*' :: (comment ++ '*' :: '/' :: cs))

/-- At the end of a text a line comment needs no end of its own. -/
inductive LastFiller : List Char → Prop
  | filler {cs : List Char} : Filler cs → LastFiller cs
  | line {cs comment : List Char} : Filler cs → '\n' ∉ comment → LastFiller (cs ++ '/' :: '/' :: comment)

def Spaces (cs : List Char) : Prop := ∀ c ∈ cs, isSpace c = true

/-- Tokens, each with what comes before it, and what comes last. -/
def lay (pieces : List (List Char × Token)) (last : List Char) : List Char :=
  pieces.flatMap (fun piece => piece.1 ++ piece.2.text) ++ last

def Laid (gap lastGap : List Char → Prop) (tokens : List Token) (text : List Char) : Prop :=
  ∃ pieces last, (∀ piece ∈ pieces, gap piece.1) ∧ lastGap last ∧ pieces.map Prod.snd = tokens ∧ text = lay pieces last

/-- A JSON text of the document. -/
def PlainText (document : Document) (text : List Char) : Prop := Laid Spaces Spaces (tokens false document) text

/-- A text of the document with comments and trailing commas. -/
def CommentedText (document : Document) (text : List Char) : Prop := Laid Filler LastFiller (tokens true document) text

theorem lay_cons (gap : List Char) (token : Token) (pieces : List (List Char × Token)) (last : List Char) :
    lay ((gap, token) :: pieces) last = gap ++ (token.text ++ lay pieces last) := by
  rw [lay, List.flatMap_cons, List.append_assoc, List.append_assoc, ← lay]

end Zenith.Jsonc
