import TarnBuild.Proofs.Token.Longest
import TarnBuild.Text.Blank

/-!
# Blank characters in tokens

Only literals in quotes have blank characters in them, and these begin and end
with their quotes.  So trimming takes nothing away from a text that begins and
ends with a token.
-/

namespace TarnBuild

open Text (isBlank)

/-! ## Classes of characters -/

/-- The visible characters of ASCII are not blank. -/
theorem not_isBlank_of_toNat
    {character : Char} (low : 33 ≤ character.toNat) (high : character.toNat ≤ 126) :
    ¬ isBlank character := by
  simp only [isBlank, Text.blankRanges, List.any_cons, List.any_nil, Bool.or_false,
    Bool.or_eq_true, Bool.and_eq_true, decide_eq_true_eq]
  omega

theorem not_isBlank_of_isNamePart {character : Char} (isPart : isNamePart character) :
    ¬ isBlank character := by
  simp only [isNamePart, isUpperStart, isLowerStart, isDigit, Bool.or_eq_true, Bool.and_eq_true,
    decide_eq_true_eq, beq_iff_eq, Char.le_def, UInt32.le_iff_toNat_le] at isPart
  have inRange : 33 ≤ character.val.toNat ∧ character.val.toNat ≤ 126 := by
    rcases isPart with (upper | lower | rfl) | digit
    · exact ⟨Nat.le_trans (by decide) upper.1, Nat.le_trans upper.2 (by decide)⟩
    · exact ⟨Nat.le_trans (by decide) lower.1, Nat.le_trans lower.2 (by decide)⟩
    · decide
    · exact ⟨Nat.le_trans (by decide) digit.1, Nat.le_trans digit.2 (by decide)⟩
  exact not_isBlank_of_toNat inRange.1 inRange.2

theorem not_isBlank_of_isDigit {character : Char} (digit : isDigit character) :
    ¬ isBlank character :=
  not_isBlank_of_isNamePart (Scan.isNamePart_of_isDigit digit)

theorem not_isBlank_of_isSymbol {character : Char} (symbol : isSymbol character) :
    ¬ isBlank character := by
  have all : ∀ sign ∈ ['+', '-', '*', '/', '%', '!', '&', '|', '^', '~', '?', '.', '@', '\\'],
      ¬ isBlank sign := List.any_eq_false.1 (by decide)
  exact all character (by simpa [isSymbol] using symbol)

theorem isBlank_of_isLayout {character : Char} (layout : isLayout character) :
    isBlank character := by
  simp only [isLayout, Bool.or_eq_true, beq_iff_eq] at layout
  rcases layout with (((rfl | rfl) | rfl) | rfl) | rfl <;> decide

/-! ## Words of tokens -/

theorem not_isBlank_of_mem_name
    {starts : Char → Bool} {word : List Char}
    (areParts : ∀ character, starts character → isNamePart character)
    (isName : word ∈ Pattern.name starts) :
    ∀ character ∈ word, ¬ isBlank character := by
  cases word with
  | nil => nofun
  | cons first rest =>
      rcases Pattern.cons_mem_name_iff.1 isName with ⟨isStart, parts⟩
      refine List.forall_mem_cons.2 ⟨not_isBlank_of_isNamePart (areParts first isStart), ?_⟩
      exact fun character isIn => not_isBlank_of_isNamePart (parts character isIn)

theorem not_isBlank_of_mem_integer
    {word : List Char} (isInteger : word ∈ Pattern.integer) :
    ∀ character ∈ word, ¬ isBlank character := by
  cases word with
  | nil => nofun
  | cons first rest =>
      rcases Pattern.cons_mem_integer_iff.1 isInteger with ⟨isFirst, digits⟩
      refine List.forall_mem_cons.2 ⟨not_isBlank_of_isDigit isFirst, ?_⟩
      exact fun character isIn => not_isBlank_of_isDigit (digits character isIn)

/-- Only literals in quotes have blank characters. -/
theorem not_isBlank_of_mem_pattern
    {token : Token} {word : List Char}
    (notString : token ≠ .stringLiteral)
    (notChar : token ≠ .charLiteral)
    (isWritten : word ∈ token.pattern) :
    ∀ character ∈ word, ¬ isBlank character := by
  have ofLower (isName : word ∈ Pattern.name isLowerStart) :=
    not_isBlank_of_mem_name (fun _ => Scan.isNamePart_of_isLowerStart) isName
  cases token with
  | keyword keyword =>
      have isName := Scan.keyword_mem_name keyword
      rw [← show word = keyword.word.toList from isWritten] at isName
      exact ofLower isName
  | primitive type =>
      have isName := Scan.primitive_mem_name type
      rw [← show word = type.word.toList from isWritten] at isName
      exact ofLower isName
  | mark sign =>
      rw [show word = sign.text from isWritten]
      exact List.any_eq_false.1 (by cases sign <;> decide)
  | symbol =>
      rcases isWritten with ⟨character, isSymbol, rfl⟩
      exact List.forall_mem_singleton.2 (not_isBlank_of_isSymbol isSymbol)
  | integerLiteral => exact not_isBlank_of_mem_integer isWritten
  | floatLiteral =>
      rcases Pattern.mem_float_iff.1 isWritten with ⟨whole, isWhole, fraction, isFraction, rfl⟩
      refine List.forall_mem_append.2 ⟨not_isBlank_of_mem_integer isWhole, ?_⟩
      exact List.forall_mem_cons.2 ⟨by decide, not_isBlank_of_mem_integer isFraction⟩
  | stringLiteral => exact (notString rfl).elim
  | charLiteral => exact (notChar rfl).elim
  | upper name =>
      exact not_isBlank_of_mem_name (fun _ => Scan.isNamePart_of_isUpperStart) isWritten.1
  | lower name => exact ofLower isWritten.1

/-- A token neither begins nor ends with a blank character. -/
theorem not_isBlank_of_mem_ends
    {token : Token} {word : List Char} (isWritten : word ∈ token.pattern) :
    (∀ character ∈ word.head?, ¬ isBlank character) ∧
      ∀ character ∈ word.getLast?, ¬ isBlank character := by
  have ofQuoted {quote : Char} {inner : Language Char} (notBlank : ¬ isBlank quote)
      (isQuoted : word ∈ Pattern.quoted quote inner) :
      (∀ character ∈ word.head?, ¬ isBlank character) ∧
        ∀ character ∈ word.getLast?, ¬ isBlank character := by
    rcases Pattern.mem_quoted_iff.1 isQuoted with ⟨items, _, rfl⟩
    constructor
    · simpa using notBlank
    · rw [← List.cons_append, List.getLast?_concat]
      simpa using notBlank
  by_cases isString : token = .stringLiteral
  · subst isString
    exact ofQuoted (by decide) isWritten
  by_cases isChar : token = .charLiteral
  · subst isChar
    exact ofQuoted (by decide) isWritten
  have inside := not_isBlank_of_mem_pattern isString isChar isWritten
  exact ⟨fun character isHead => inside character (List.mem_of_mem_head? isHead),
    fun character isLast => inside character (List.mem_of_mem_getLast? isLast)⟩

end TarnBuild
