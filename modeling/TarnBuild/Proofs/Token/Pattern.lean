import Mathlib.Computability.Language
import TarnBuild.Token.Lexer

/-!
# Patterns of tokens

What tokens and the text between them look like, said without a scanner.  The
pattern of a token is the set of the words that it is written as, put together
from classes of characters.  A token stands at a place where its pattern
matches and no pattern matches a longer word; the opening of a comment counts
as such a word, too.

A tokenization of a source cuts it into tokens and gaps.  A gap is made of
layout characters and comments, each comment as long as its kind demands.
-/

namespace TarnBuild

open Computability
open Text (Span byteLength)

/-! ## Patterns -/

/-- The words of one character of a class. -/
def charClass (accepts : Char → Bool) : Language Char :=
  {word | ∃ character, accepts character ∧ word = [character]}

namespace Pattern

/-- One or more digits. -/
def integer : Language Char :=
  charClass isDigit * (charClass isDigit)∗

/-- Digits, a point and digits. -/
def float : Language Char :=
  integer * {['.']} * integer

/-- A character other than the quote and the backslash, or a backslash and any
character but a line feed. -/
def quotedItem (quote : Char) : Language Char :=
  charClass (fun character => character != quote && character != '\\') +
    {['\\']} * charClass (· != '\n')

/-- A quote, a word of a pattern and a quote. -/
def quoted (quote : Char) (inner : Language Char) : Language Char :=
  {[quote]} * inner * {[quote]}

/-- Any number of items in quotation marks. -/
def string : Language Char :=
  quoted '"' (quotedItem '"')∗

/-- One item in apostrophes. -/
def char : Language Char :=
  quoted '\'' (quotedItem '\'')

/-- The start of a name and any number of characters that continue it. -/
def name (starts : Char → Bool) : Language Char :=
  charClass starts * (charClass isNamePart)∗

end Pattern

/-- A word that is a keyword or names a primitive type. -/
def IsReserved (word : String) : Prop :=
  (∃ keyword : Keyword, keyword.word = word) ∨ ∃ type : Primitive, type.word = word

/-- The words that a token is written as.  A reserved word is never a name. -/
def Token.pattern : Token → Language Char
  | keyword word => {word.word.toList}
  | primitive type => {type.word.toList}
  | mark sign => {sign.text}
  | symbol => charClass isSymbol
  | integerLiteral => Pattern.integer
  | floatLiteral => Pattern.float
  | stringLiteral => Pattern.string
  | charLiteral => Pattern.char
  | upper name => {word | word ∈ Pattern.name isUpperStart ∧ name = String.ofList word}
  | lower name => {word | word ∈ Pattern.name isLowerStart ∧ name = String.ofList word ∧
      ¬ IsReserved name}

/-- The two words that open a comment. -/
def commentOpenings : Language Char := {['/', '/'], ['/', '*']}

/-- A piece of a text is a token when the token is written so and no longer
piece from there on is a token or opens a comment. -/
structure IsToken (token : Token) (piece after : List Char) : Prop where
  isWritten : piece ∈ token.pattern
  longest : ∀ longer, longer <+: piece ++ after → piece.length < longer.length →
    (∀ other : Token, longer ∉ other.pattern) ∧ longer ∉ commentOpenings

/-! ## Gaps -/

/-- A piece of a text that separates tokens, given the text after it. -/
inductive IsTrivium (after : List Char) : List Char → Prop where
  /-- A run of layout characters. -/
  | layout (run : List Char) (nonempty : run ≠ [])
      (isLayout : ∀ character ∈ run, isLayout character) : IsTrivium after run
  /-- Two slashes and all up to the next line feed or the end. -/
  | line (body : List Char) (inLine : '\n' ∉ body)
      (ends : ∀ character ∈ after.head?, character = '\n') :
      IsTrivium after ('/' :: '/' :: body)
  /-- A slash, a star and all up to the first star and slash after them. -/
  | block (body : List Char) (first : ¬ ['*', '/'] <:+: body ++ ['*']) :
      IsTrivium after ('/' :: '*' :: (body ++ ['*', '/']))

/-- A piece of a text that splits into such pieces. -/
inductive IsGap (after : List Char) : List Char → Prop where
  | nil : IsGap after []
  | cons (first rest : List Char) (isTrivium : IsTrivium (rest ++ after) first)
      (isGap : IsGap after rest) : IsGap after (first ++ rest)

/-! ## Tokenizations -/

/-- A span covers a piece of a text, between two characters of it. -/
structure Cut (source : List Char) (span : Span) (before piece after : List Char) :
    Prop where
  source_eq : source = before ++ piece ++ after
  start_eq : span.start = byteLength before
  stop_eq : span.stop = byteLength (before ++ piece)

/-- The spans between an offset, some lexemes and another offset. -/
def gapSpans (start stop : Nat) : List Lexeme → List Span
  | [] => [⟨start, stop⟩]
  | lexeme :: rest => ⟨start, lexeme.span.start⟩ :: gapSpans lexeme.span.stop stop rest

/-- Lexemes cut a source into tokens and gaps. -/
structure IsTokenization (source : List Char) (lexemes : List Lexeme) : Prop where
  nonempty : ∀ lexeme ∈ lexemes, lexeme.span.start < lexeme.span.stop
  increasing : lexemes.Pairwise fun first second => first.span.stop ≤ second.span.start
  tokens : ∀ lexeme ∈ lexemes, ∃ before piece after,
    Cut source lexeme.span before piece after ∧ IsToken lexeme.token piece after
  gaps : ∀ span ∈ gapSpans 0 (byteLength source) lexemes, ∃ before gap after,
    Cut source span before gap after ∧ IsGap after gap

/-! ## Words of the patterns -/

theorem cons_mem_charClass_mul
    {accepts : Char → Bool} {pattern : Language Char} {first : Char} {rest : List Char} :
    first :: rest ∈ charClass accepts * pattern ↔ accepts first ∧ rest ∈ pattern := by
  rw [Language.mem_mul]
  constructor
  · rintro ⟨_, ⟨character, accepted, rfl⟩, others, matched, same⟩
    rcases List.cons.inj same with ⟨rfl, rfl⟩
    exact ⟨accepted, matched⟩
  · rintro ⟨accepted, matched⟩
    exact ⟨[first], ⟨first, accepted, rfl⟩, rest, matched, rfl⟩

theorem nil_notMem_charClass_mul {accepts : Char → Bool} {pattern : Language Char} :
    [] ∉ charClass accepts * pattern := by
  rw [Language.mem_mul]
  rintro ⟨_, ⟨character, _, rfl⟩, others, _, same⟩
  cases same

theorem mem_charClass_star {accepts : Char → Bool} {word : List Char} :
    word ∈ (charClass accepts)∗ ↔ ∀ character ∈ word, accepts character := by
  rw [Language.mem_kstar]
  constructor
  · rintro ⟨pieces, rfl, accepted⟩ character isIn
    rcases List.mem_flatten.1 isIn with ⟨piece, isPiece, isInPiece⟩
    rcases accepted piece isPiece with ⟨only, isAccepted, rfl⟩
    rcases List.mem_singleton.1 isInPiece with rfl
    exact isAccepted
  · intro accepted
    refine ⟨word.map fun character => [character], ?_, ?_⟩
    · induction word with
      | nil => rfl
      | cons first rest ih =>
          simpa using ih fun character isIn => accepted character (List.mem_cons_of_mem _ isIn)
    · intro piece isPiece
      rcases List.mem_map.1 isPiece with ⟨character, isIn, rfl⟩
      exact ⟨character, accepted character isIn, rfl⟩

theorem mem_singleton_mul
    {word rest : List Char} {pattern : Language Char} :
    rest ∈ ({word} * pattern : Language Char) ↔ ∃ more ∈ pattern, rest = word ++ more := by
  rw [Language.mem_mul]
  constructor
  · rintro ⟨_, rfl, more, matched, rfl⟩
    exact ⟨more, matched, rfl⟩
  · rintro ⟨more, matched, rfl⟩
    exact ⟨word, rfl, more, matched, rfl⟩

theorem mem_mul_singleton
    {word rest : List Char} {pattern : Language Char} :
    rest ∈ (pattern * {word} : Language Char) ↔ ∃ front ∈ pattern, rest = front ++ word := by
  rw [Language.mem_mul]
  constructor
  · rintro ⟨front, matched, _, rfl, rfl⟩
    exact ⟨front, matched, rfl⟩
  · rintro ⟨front, matched, rfl⟩
    exact ⟨front, matched, word, rfl, rfl⟩

namespace Pattern

/-- A name is told by its first character and the class of all others. -/
theorem cons_mem_name_iff {starts : Char → Bool} {first : Char} {rest : List Char} :
    first :: rest ∈ name starts ↔ starts first ∧ ∀ character ∈ rest, isNamePart character := by
  rw [name, cons_mem_charClass_mul, mem_charClass_star]

theorem cons_mem_integer_iff {first : Char} {rest : List Char} :
    first :: rest ∈ integer ↔ isDigit first ∧ ∀ character ∈ rest, isDigit character := by
  rw [integer, cons_mem_charClass_mul, mem_charClass_star]

/-- A number with a fraction is two numbers around a point. -/
theorem mem_float_iff {word : List Char} :
    word ∈ float ↔ ∃ whole ∈ integer, ∃ fraction ∈ integer, word = whole ++ '.' :: fraction := by
  rw [float, Language.mem_mul]
  constructor
  · rintro ⟨_, matched, fraction, isFraction, rfl⟩
    rcases mem_mul_singleton.1 matched with ⟨whole, isWhole, rfl⟩
    exact ⟨whole, isWhole, fraction, isFraction, by simp⟩
  · rintro ⟨whole, isWhole, fraction, isFraction, rfl⟩
    exact ⟨whole ++ ['.'], mem_mul_singleton.2 ⟨whole, isWhole, rfl⟩, fraction, isFraction,
      by simp⟩

theorem cons_mem_float_iff {first : Char} {rest : List Char} :
    first :: rest ∈ float ↔ isDigit first ∧ ∃ digits next others,
      (∀ character ∈ digits, isDigit character) ∧ isDigit next ∧
        (∀ character ∈ others, isDigit character) ∧ rest = digits ++ '.' :: next :: others := by
  rw [mem_float_iff]
  constructor
  · rintro ⟨whole, isWhole, fraction, isFraction, same⟩
    cases whole with
    | nil => exact (nil_notMem_charClass_mul isWhole).elim
    | cons digit digits =>
        cases fraction with
        | nil => exact (nil_notMem_charClass_mul isFraction).elim
        | cons next others =>
            rcases List.cons.inj same with ⟨rfl, rfl⟩
            rcases cons_mem_integer_iff.1 isWhole with ⟨isFirst, areDigits⟩
            rcases cons_mem_integer_iff.1 isFraction with ⟨isNext, areOthers⟩
            exact ⟨isFirst, digits, next, others, areDigits, isNext, areOthers, rfl⟩
  · rintro ⟨isFirst, digits, next, others, areDigits, isNext, areOthers, rfl⟩
    exact ⟨first :: digits, cons_mem_integer_iff.2 ⟨isFirst, areDigits⟩, next :: others,
      cons_mem_integer_iff.2 ⟨isNext, areOthers⟩, rfl⟩

/-- An item is one plain character, or a backslash with one character. -/
theorem mem_quotedItem_iff {quote : Char} {item : List Char} :
    item ∈ quotedItem quote ↔
      (∃ plain, plain ≠ quote ∧ plain ≠ '\\' ∧ item = [plain]) ∨
        ∃ escaped, escaped ≠ '\n' ∧ item = ['\\', escaped] := by
  rw [quotedItem, Language.mem_add, mem_singleton_mul]
  refine or_congr ?_ ?_
  · constructor
    · rintro ⟨plain, isPlain, rfl⟩
      have different : plain ≠ quote ∧ plain ≠ '\\' := by simpa using isPlain
      exact ⟨plain, different.1, different.2, rfl⟩
    · rintro ⟨plain, notQuote, notBackslash, rfl⟩
      exact ⟨plain, by simp [notQuote, notBackslash], rfl⟩
  · constructor
    · rintro ⟨_, ⟨escaped, notFeed, rfl⟩, rfl⟩
      exact ⟨escaped, by simpa using notFeed, rfl⟩
    · rintro ⟨escaped, notFeed, rfl⟩
      exact ⟨[escaped], ⟨escaped, by simpa using notFeed, rfl⟩, rfl⟩

/-- A quoted word has its quotation mark at both ends. -/
theorem mem_quoted_iff {quote : Char} {inner : Language Char} {word : List Char} :
    word ∈ quoted quote inner ↔ ∃ items ∈ inner, word = quote :: (items ++ [quote]) := by
  rw [quoted, mem_mul_singleton]
  constructor
  · rintro ⟨_, matched, rfl⟩
    rcases mem_singleton_mul.1 matched with ⟨items, areItems, rfl⟩
    exact ⟨items, areItems, rfl⟩
  · rintro ⟨items, areItems, rfl⟩
    exact ⟨quote :: items, mem_singleton_mul.2 ⟨items, areItems, rfl⟩, rfl⟩

end Pattern

end TarnBuild
