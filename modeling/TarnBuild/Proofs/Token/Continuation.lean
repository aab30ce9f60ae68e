import TarnBuild.Proofs.Token.Blank
import TarnBuild.Proofs.Token.Tokenization

/-!
# Cutting a source off and going on

A source can be cut off in front of a token, or at its end, and go on with a
line feed and another text.  The tokens before the cut stay as they are: only
a literal in quotes can run over a line feed, and such a literal ends with its
closing quote, whatever follows.
-/

namespace TarnBuild

open Computability
open Text (Span byteLength)

/-! ## Tokens before a layout character -/

/-- A word that starts with a quote is the literal in such quotes. -/
theorem pattern_of_quote_cons_mem
    {token : Token} {quote : Char} {rest : List Char}
    (isQuote : quote = '"' ∨ quote = '\'')
    (isWritten : quote :: rest ∈ token.pattern) :
    (quote = '"' ∧ token = .stringLiteral) ∨ (quote = '\'' ∧ token = .charLiteral) := by
  have notFirst {accepts : Char → Bool} (notDouble : accepts '"' = false)
      (notSingle : accepts '\'' = false) : ¬ accepts quote := by
    rcases isQuote with rfl | rfl
    · simp [notDouble]
    · simp [notSingle]
  cases token with
  | keyword keyword =>
      rcases isQuote with rfl | rfl <;> cases keyword <;> cases isWritten
  | primitive type =>
      rcases isQuote with rfl | rfl <;> cases type <;> cases isWritten
  | mark sign =>
      rcases isQuote with rfl | rfl <;> cases sign <;> cases isWritten
  | symbol =>
      rcases isWritten with ⟨character, isSymbol, same⟩
      rcases List.cons.inj same with ⟨rfl, _⟩
      exact (notFirst (by decide) (by decide) isSymbol).elim
  | integerLiteral =>
      exact (notFirst rfl rfl (Pattern.cons_mem_integer_iff.1 isWritten).1).elim
  | floatLiteral =>
      exact (notFirst rfl rfl (Pattern.cons_mem_float_iff.1 isWritten).1).elim
  | stringLiteral =>
      rcases Pattern.mem_quoted_iff.1 isWritten with ⟨items, _, same⟩
      exact .inl ⟨(List.cons.inj same).1, rfl⟩
  | charLiteral =>
      rcases Pattern.mem_quoted_iff.1 isWritten with ⟨item, _, same⟩
      exact .inr ⟨(List.cons.inj same).1, rfl⟩
  | upper name => exact (notFirst rfl rfl (Pattern.cons_mem_name_iff.1 isWritten.1).1).elim
  | lower name => exact (notFirst rfl rfl (Pattern.cons_mem_name_iff.1 isWritten.1).1).elim

/-- A string literal ends at its first quote after items. -/
theorem append_notMem_string_pattern
    {word more : List Char}
    (isWritten : word ∈ Token.stringLiteral.pattern)
    (notEmpty : more ≠ []) :
    word ++ more ∉ Token.stringLiteral.pattern := by
  intro isLonger
  rcases Pattern.mem_quoted_iff.1 isWritten with ⟨shorter, areShorter, rfl⟩
  rcases Pattern.mem_quoted_iff.1 isLonger with ⟨items, areItems, same⟩
  rw [List.cons_append, List.append_assoc, List.singleton_append] at same
  have split := congrArg splitItems (List.cons.inj same).2
  rw [Scan.splitItems_append_quote areShorter, Scan.splitItems_append_quote areItems] at split
  exact notEmpty (by simpa using (Prod.mk.inj split).2)

/-- A character literal ends at the quote after its item. -/
theorem append_notMem_char_pattern
    {word more : List Char}
    (isWritten : word ∈ Token.charLiteral.pattern)
    (notEmpty : more ≠ []) :
    word ++ more ∉ Token.charLiteral.pattern := by
  intro isLonger
  rcases Pattern.mem_quoted_iff.1 isWritten with ⟨shorter, isShorter, rfl⟩
  rcases Pattern.mem_quoted_iff.1 isLonger with ⟨item, isItem, same⟩
  rw [List.cons_append, List.append_assoc, List.singleton_append] at same
  have scan := congrArg Scan.character (List.cons.inj same).2
  rw [Scan.character_append isShorter, Scan.character_append isItem] at scan
  exact notEmpty (Scan.token.inj scan).2.2

/-- A word of a token does not go on over a layout character to a word of a
token. -/
theorem append_notMem_pattern
    {token other : Token} {word more : List Char} {next : Char}
    (isWritten : word ∈ token.pattern)
    (layout : isLayout next)
    (isIn : next ∈ more) :
    word ++ more ∉ other.pattern := by
  intro isLonger
  have notEmpty : more ≠ [] := List.ne_nil_of_mem isIn
  by_cases isQuoted : other = .stringLiteral ∨ other = .charLiteral
  · cases word with
    | nil => exact pattern_ne_nil isWritten rfl
    | cons first rest =>
        rw [List.cons_append] at isLonger
        -- The quote at the start makes both words literals of one kind.
        rcases isQuoted with rfl | rfl
        · rcases Pattern.mem_quoted_iff.1 isLonger with ⟨items, areItems, same⟩
          rcases List.cons.inj same with ⟨rfl, _⟩
          rcases pattern_of_quote_cons_mem (.inl rfl) isWritten with ⟨_, rfl⟩ | ⟨isOther, _⟩
          · exact append_notMem_string_pattern isWritten notEmpty isLonger
          · cases isOther
        · rcases Pattern.mem_quoted_iff.1 isLonger with ⟨item, isItem, same⟩
          rcases List.cons.inj same with ⟨rfl, _⟩
          rcases pattern_of_quote_cons_mem (.inr rfl) isWritten with ⟨isOther, _⟩ | ⟨_, rfl⟩
          · cases isOther
          · exact append_notMem_char_pattern isWritten notEmpty isLonger
  · rw [not_or] at isQuoted
    exact not_isBlank_of_mem_pattern isQuoted.1 isQuoted.2 isLonger next
      (List.mem_append_right word isIn) (isBlank_of_isLayout layout)

/-- A word of a token is this token in front of a layout character, if nothing
longer stands there up to this character. -/
theorem isToken_before_layout
    {token : Token} {piece front : List Char} {next : Char}
    (isWritten : piece ∈ token.pattern)
    (longest : ∀ longer, longer <+: piece ++ front → piece.length < longer.length →
      (∀ other : Token, longer ∉ other.pattern) ∧ longer ∉ commentOpenings)
    (layout : isLayout next) (more : List Char) :
    IsToken token piece (front ++ next :: more) where
  isWritten := isWritten
  longest longer isPrefix isLonger := by
    rw [← List.append_assoc] at isPrefix
    rcases List.prefix_or_prefix_of_prefix isPrefix (List.prefix_append _ _) with
      isInside | ⟨further, rfl⟩
    · exact longest longer isInside isLonger
    · cases further with
      | nil => exact longest _ (by simp) isLonger
      | cons character further =>
          rcases List.cons_prefix_cons.1 ((List.prefix_append_right_inj _).1 isPrefix) with
            ⟨rfl, _⟩
          constructor
          · intro other
            rw [List.append_assoc]
            exact append_notMem_pattern isWritten layout (by simp)
          · -- The two openings of comments have no layout character in them.
            rintro (isLine | isBlock)
            · have isIn : character ∈ ['/', '/'] := isLine ▸ by simp
              rcases List.mem_pair.1 isIn with rfl | rfl <;> exact absurd layout (by decide)
            · have isIn : character ∈ ['/', '*'] := isBlock ▸ by simp
              rcases List.mem_pair.1 isIn with rfl | rfl <;> exact absurd layout (by decide)

/-- A token stays a token when the text after it is cut off and goes on with a
layout character. -/
theorem IsToken.before_layout
    {token : Token} {piece front back : List Char} {next : Char}
    (isToken : IsToken token piece (front ++ back))
    (layout : isLayout next) (more : List Char) :
    IsToken token piece (front ++ next :: more) := by
  refine isToken_before_layout isToken.isWritten ?_ layout more
  intro longer isPrefix
  refine isToken.longest longer ?_
  rw [← List.append_assoc]
  exact isPrefix.trans (List.prefix_append _ _)

/-! ## Gaps before a line feed -/

/-- Whether a piece separates tokens depends at most on the next character, and
a line feed suits every such piece. -/
theorem IsTrivium.congr
    {piece after other : List Char}
    (isTrivium : IsTrivium after piece)
    (next : ∀ character ∈ other.head?, character = '\n' ∨ character ∈ after.head?) :
    IsTrivium other piece := by
  cases isTrivium with
  | layout _ nonempty isLayout => exact .layout _ nonempty isLayout
  | line body inLine ends =>
      refine .line body inLine fun character isNext => ?_
      exact (next character isNext).elim id (ends character)
  | block body first => exact .block body first

theorem IsGap.congr
    {gap after other : List Char}
    (isGap : IsGap after gap)
    (next : ∀ character ∈ other.head?, character = '\n' ∨ character ∈ after.head?) :
    IsGap other gap := by
  induction isGap with
  | nil => exact .nil
  | cons first rest isTrivium _ ih =>
      refine .cons first rest (isTrivium.congr fun character isNext => ?_) ih
      cases rest with
      | nil => exact next character isNext
      | cons => exact .inr isNext

theorem TokenizedFrom.append_gap
    {offset : Nat} {gap text : List Char} {lexemes : List Lexeme}
    (isGap : IsGap text gap)
    (tokenized : TokenizedFrom (offset + byteLength gap) text lexemes) :
    TokenizedFrom offset (gap ++ text) lexemes := by
  induction isGap generalizing offset with
  | nil => exact tokenized
  | cons first rest isTrivium _ ih =>
      rw [List.append_assoc]
      exact .cons_gap isTrivium (ih (by simpa [Nat.add_assoc] using tokenized))

/-! ## Cutting off -/

/-- In front of each lexeme, and at its end, a text can be cut off and go on
with a line feed. -/
theorem TokenizedFrom.exists_cut
    {offset : Nat} {text : List Char} (front : List Lexeme) {back : List Lexeme}
    (tokenized : TokenizedFrom offset text (front ++ back)) :
    ∃ before after, text = before ++ after ∧
      (∀ lexeme ∈ back.head?, lexeme.span.start = offset + byteLength before) ∧
      (back = [] → after = []) ∧
      ∀ more lexemes, TokenizedFrom (offset + byteLength before) ('\n' :: more) lexemes →
        TokenizedFrom offset (before ++ '\n' :: more) (front ++ lexemes) := by
  induction front generalizing offset text with
  | nil =>
      cases tokenized with
      | gap _ gap isGap =>
          refine ⟨text, [], by simp, nofun, fun _ => rfl, fun more lexemes others => ?_⟩
          exact .append_gap (isGap.congr (by simp)) others
      | token _ gap piece rest token lexemes isGap isToken others =>
          refine ⟨gap, piece ++ rest, rfl, by simp, nofun, fun more lexemes others => ?_⟩
          exact .append_gap (isGap.congr (by simp)) others
  | cons first front ih =>
      cases tokenized with
      | token _ gap piece rest token _ isGap isToken others =>
          rcases ih others with ⟨before, after, rfl, start_eq, atEnd, goesOn⟩
          refine ⟨gap ++ piece ++ before, after, by simp, ?_, atEnd, fun more lexemes others => ?_⟩
          · intro lexeme isNext
            rw [start_eq lexeme isNext]
            simp [Nat.add_assoc]
          · have notEmpty := pattern_ne_nil isToken.isWritten
            have sameNext : ∀ character ∈ (piece ++ (before ++ '\n' :: more)).head?,
                character = '\n' ∨ character ∈ (piece ++ (before ++ after)).head? := by
              intro character isNext
              cases piece with
              | nil => exact (notEmpty rfl).elim
              | cons => exact .inr isNext
            have tokenized := TokenizedFrom.token offset gap piece (before ++ '\n' :: more) token _
              (isGap.congr sameNext) (isToken.before_layout (by decide) more)
              (goesOn more lexemes (by simpa [Nat.add_assoc] using others))
            simpa using tokenized

/-! ## Going on -/

namespace Token

/-- There is a way to write the token. -/
def IsWritable (token : Token) : Prop :=
  ∃ word, word ∈ token.pattern

end Token

/-- Tokens that can be written can be written one after the other, each before a line feed. -/
theorem exists_text_of_isWritable
    {tokens : List Token} (areWritable : ∀ token ∈ tokens, token.IsWritable) (offset : Nat) :
    ∃ text lexemes, TokenizedFrom offset ('\n' :: text) lexemes ∧
      lexemes.map Lexeme.token = tokens := by
  have lineFeed (text : List Char) : IsTrivium text ['\n'] :=
    .layout _ (by simp) (by simp [isLayout])
  induction tokens generalizing offset with
  | nil => exact ⟨[], [], .gap offset _ (.cons _ [] (lineFeed _) .nil), rfl⟩
  | cons token tokens ih =>
      rcases List.forall_mem_cons.1 areWritable with ⟨⟨word, isWritten⟩, areOthersWritable⟩
      rcases ih areOthersWritable (offset + 1 + byteLength word) with ⟨text, lexemes, others, rfl⟩
      have isToken : IsToken token word ([] ++ '\n' :: text) := by
        refine isToken_before_layout isWritten ?_ (by decide) text
        intro longer isPrefix isLonger
        rw [List.append_nil] at isPrefix
        exact absurd isPrefix.length_le (by omega)
      have isGap : IsGap (word ++ '\n' :: text) ['\n'] := .cons _ [] (lineFeed _) .nil
      exact ⟨_, _, .token offset ['\n'] word _ token lexemes isGap isToken others, rfl⟩

end TarnBuild
