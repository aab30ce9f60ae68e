import Mathlib.Data.List.TakeWhile
import TarnBuild.Proofs.Token.Pattern

/-!
# What scans take

What a scan takes from the front of a text has the form that the patterns
demand: a piece of a gap, or a word of the token that the scan names.  The
first character decides which of the two it is, and what to look for.
-/

namespace TarnBuild

open Computability

namespace Scan

/-! ## First characters -/

/-- The characters of names are none of those that a scan asks for first. -/
theorem ne_of_isNamePart {character : Char} (isPart : isNamePart character) :
    ¬ isLayout character ∧ character ≠ '/' ∧ character ≠ '-' := by
  refine ⟨fun isLayout => ?_, ?_, ?_⟩
  · simp only [TarnBuild.isLayout, Bool.or_eq_true, beq_iff_eq] at isLayout
    rcases isLayout with (((rfl | rfl) | rfl) | rfl) | rfl <;> exact absurd isPart (by decide)
  · rintro rfl
    exact absurd isPart (by decide)
  · rintro rfl
    exact absurd isPart (by decide)

theorem isNamePart_of_isDigit {character : Char} (isDigit : isDigit character) :
    isNamePart character := by
  simp [isNamePart, isDigit]

theorem isNamePart_of_isUpperStart {character : Char} (isStart : isUpperStart character) :
    isNamePart character := by
  simp [isNamePart, isStart]

theorem isNamePart_of_isLowerStart {character : Char} (isStart : isLowerStart character) :
    isNamePart character := by
  simp [isNamePart, isStart]

theorem not_isDigit_of_isUpperStart {character : Char} (isStart : isUpperStart character) :
    ¬ isDigit character := by
  simp only [isUpperStart, isDigit, Bool.and_eq_true, decide_eq_true_eq, Char.le_def,
    UInt32.le_iff_toNat_le] at isStart ⊢
  have low : 'A'.val.toNat = 65 := rfl
  have high : '9'.val.toNat = 57 := rfl
  omega

/-- The classes of first characters exclude each other, so the order in which
they are asked for does not matter. -/
theorem not_isStart_of_isLowerStart {character : Char} (isStart : isLowerStart character) :
    ¬ isDigit character ∧ ¬ isUpperStart character := by
  simp only [isLowerStart, isUpperStart, isDigit, Bool.or_eq_true, Bool.and_eq_true,
    decide_eq_true_eq, beq_iff_eq, Char.le_def, UInt32.le_iff_toNat_le] at isStart ⊢
  have low : 'a'.val.toNat = 97 := rfl
  have highUpper : 'Z'.val.toNat = 90 := rfl
  have highDigit : '9'.val.toNat = 57 := rfl
  have underscore : '_'.val.toNat = 95 := rfl
  rcases isStart with inRange | rfl <;> omega

theorem start_slash (rest : List Char) : start '/' rest = slash rest := rfl

theorem start_of_isDigit {first : Char} (isDigit : isDigit first) (rest : List Char) :
    start first rest = number first rest := by
  rcases ne_of_isNamePart (isNamePart_of_isDigit isDigit) with ⟨notLayout, notSlash, notHyphen⟩
  simp [start, notLayout, notSlash, notHyphen, isDigit]

theorem start_of_isUpperStart {first : Char} (isStart : isUpperStart first) (rest : List Char) :
    start first rest = name .upper first rest := by
  rcases ne_of_isNamePart (isNamePart_of_isUpperStart isStart) with
    ⟨notLayout, notSlash, notHyphen⟩
  have notDigit := not_isDigit_of_isUpperStart isStart
  simp [start, notLayout, notSlash, notHyphen, notDigit, isStart]

theorem start_of_isLowerStart {first : Char} (isStart : isLowerStart first) (rest : List Char) :
    start first rest = name wordToken first rest := by
  rcases ne_of_isNamePart (isNamePart_of_isLowerStart isStart) with
    ⟨notLayout, notSlash, notHyphen⟩
  rcases not_isStart_of_isLowerStart isStart with ⟨notDigit, notUpper⟩
  simp [start, notLayout, notSlash, notHyphen, notDigit, notUpper, isStart]

/-! ## Words of names -/

theorem ofWord?_eq_some_iff {word : String} {keyword : Keyword} :
    Keyword.ofWord? word = some keyword ↔ keyword.word = word := by
  constructor
  · intro found
    simpa using List.find?_some found
  · rintro rfl
    simp

theorem primitive_ofWord?_eq_some_iff {word : String} {type : Primitive} :
    Primitive.ofWord? word = some type ↔ type.word = word := by
  constructor
  · intro found
    simpa using List.find?_some found
  · rintro rfl
    simp

theorem wordToken_keyword (keyword : Keyword) :
    wordToken keyword.word = .keyword keyword := by
  simp [wordToken]

theorem wordToken_primitive (type : Primitive) :
    wordToken type.word = .primitive type := by
  cases type <;> decide

/-- A word that is not reserved is a name. -/
theorem wordToken_of_not_isReserved {word : String} (notReserved : ¬ IsReserved word) :
    wordToken word = .lower word := by
  have noKeyword : Keyword.ofWord? word = none := by
    rw [Option.eq_none_iff_forall_ne_some]
    intro keyword found
    exact notReserved (.inl ⟨keyword, ofWord?_eq_some_iff.1 found⟩)
  have noPrimitive : Primitive.ofWord? word = none := by
    rw [Option.eq_none_iff_forall_ne_some]
    intro type found
    exact notReserved (.inr ⟨type, primitive_ofWord?_eq_some_iff.1 found⟩)
  simp [wordToken, noKeyword, noPrimitive]

/-- A word that starts a name is written as the token that is made of it. -/
theorem mem_pattern_wordToken {word : List Char}
    (isName : word ∈ Pattern.name isLowerStart) :
    word ∈ (wordToken (String.ofList word)).pattern := by
  unfold wordToken
  split
  · next keyword found =>
      have same := ofWord?_eq_some_iff.1 found
      show word = keyword.word.toList
      simp [same]
  · next notKeyword =>
      split
      · next type found =>
          have same := primitive_ofWord?_eq_some_iff.1 found
          show word = type.word.toList
          simp [same]
      · next notPrimitive =>
          refine ⟨isName, rfl, ?_⟩
          rintro (⟨keyword, same⟩ | ⟨type, same⟩)
          · rw [ofWord?_eq_some_iff.2 same] at notKeyword
            cases notKeyword
          · rw [primitive_ofWord?_eq_some_iff.2 same] at notPrimitive
            cases notPrimitive

/-! ## What a scan takes has the right form -/

/-- What a scan takes is a piece of a gap before the rest, or a word of its
token. -/
def Fits : Scan → Prop
  | .gap skipped rest => IsTrivium rest skipped
  | .token found piece _ => piece ∈ found.pattern
  | .openComment => True
  | .stray _ => True

theorem ends_dropWhile_ne_lineFeed (text : List Char) :
    ∀ character ∈ (text.dropWhile (· != '\n')).head?, character = '\n' := by
  intro character isHead
  have stops := List.head?_dropWhile_not (· != '\n') text
  rw [Option.mem_def.1 isHead] at stops
  simpa using stops

/-- The comment that is split off ends at the first star and slash. -/
theorem exists_of_splitComment? {text comment rest : List Char}
    (split : splitComment? text = some (comment, rest)) :
    ∃ body, comment = body ++ ['*', '/'] ∧ ¬ ['*', '/'] <:+: body ++ ['*'] := by
  fun_induction splitComment? text generalizing comment rest with
  | case1 => cases split
  | case2 =>
      cases split
      exact ⟨[], rfl, by decide⟩
  | case3 character tail notClosing ih =>
      rcases Option.map_eq_some_iff.1 split with ⟨⟨first, second⟩, inner, equation⟩
      cases equation
      rcases ih inner with ⟨body, rfl, notInside⟩
      refine ⟨character :: body, rfl, ?_⟩
      rw [List.cons_append, List.infix_cons_iff]
      rintro (⟨after, starts⟩ | inside)
      · -- The text would start with the closing, which is the other case.
        rcases List.cons.inj starts with ⟨rfl, slashStarts⟩
        have whole := append_of_splitComment? inner
        cases body with
        | nil => simp at slashStarts
        | cons next body =>
            rcases List.cons.inj slashStarts with ⟨rfl, _⟩
            exact notClosing (body ++ ['*', '/'] ++ second) rfl (by simpa using whole.symm)
      · exact notInside inside

theorem fits_slash (rest : List Char) : (slash rest).Fits := by
  unfold slash
  split
  · next rest =>
      refine IsTrivium.line _ ?_ (ends_dropWhile_ne_lineFeed rest)
      intro isIn
      simpa using List.mem_takeWhile_imp isIn
  · next rest =>
      split
      · next comment after found =>
          rcases exists_of_splitComment? found with ⟨body, rfl, first⟩
          exact IsTrivium.block body first
      · trivial
  · exact ⟨'/', by decide, rfl⟩

theorem fits_hyphen (rest : List Char) : (hyphen rest).Fits := by
  unfold hyphen
  split
  · rfl
  · exact ⟨'-', by decide, rfl⟩

/-- A number is scanned as a number with or without a fraction. -/
theorem fits_number {digit : Char} (startsNumber : isDigit digit) (rest : List Char) :
    (number digit rest).Fits := by
  have takesInteger {digit : Char} (startsNumber : isDigit digit) (rest : List Char) :
      digit :: rest.takeWhile isDigit ∈ Pattern.integer :=
    Pattern.cons_mem_integer_iff.2 ⟨startsNumber, fun _ => List.mem_takeWhile_imp⟩
  have whole := takesInteger startsNumber rest
  unfold number
  dsimp only
  split
  · next first after _ =>
      split
      · next startsFraction =>
          exact Pattern.mem_float_iff.2 ⟨_, whole, _, takesInteger startsFraction after, rfl⟩
      · exact whole
  · exact whole

/-- All characters that can go on with a name make a name. -/
theorem takeWhile_mem_name {starts : Char → Bool} {first : Char}
    (isStart : starts first) (rest : List Char) :
    first :: rest.takeWhile isNamePart ∈ Pattern.name starts :=
  Pattern.cons_mem_name_iff.2 ⟨isStart, fun _ => List.mem_takeWhile_imp⟩

/-- The items that are split off are items of a string. -/
theorem splitItems_mem (text : List Char) :
    (splitItems text).1 ∈ (Pattern.quotedItem '"')∗ := by
  have extend (item : List Char) {items : List Char}
      (isItem : item ∈ Pattern.quotedItem '"')
      (areItems : items ∈ (Pattern.quotedItem '"')∗) :
      item ++ items ∈ (Pattern.quotedItem '"')∗ := by
    rcases Language.mem_kstar.1 areItems with ⟨pieces, rfl, arePieces⟩
    exact Language.mem_kstar.2 ⟨item :: pieces, rfl, by simpa using ⟨isItem, arePieces⟩⟩
  fun_induction splitItems text with
  | case1 => exact Language.nil_mem_kstar _
  | case2 => exact Language.nil_mem_kstar _
  | case3 => exact Language.nil_mem_kstar _
  | case4 => exact Language.nil_mem_kstar _
  | case5 escaped rest notFeed split ih =>
      refine extend ['\\', escaped] (Pattern.mem_quotedItem_iff.2 (.inr ?_)) ih
      exact ⟨escaped, by simpa using notFeed, rfl⟩
  | case6 character rest notQuote notLast notEscape split ih =>
      refine extend [character] (Pattern.mem_quotedItem_iff.2 (.inl ?_)) ih
      refine ⟨character, fun isQuote => notQuote isQuote, ?_, rfl⟩
      rintro rfl
      cases rest with
      | nil => exact notLast rfl rfl
      | cons escaped rest => exact notEscape escaped rest rfl rfl

theorem fits_string (rest : List Char) : (string rest).Fits := by
  have items := splitItems_mem rest
  unfold string
  split
  · next inner after equation =>
      rw [equation] at items
      exact Pattern.mem_quoted_iff.2 ⟨inner, items, rfl⟩
  · trivial

theorem fits_character (rest : List Char) : (character rest).Fits := by
  unfold character
  split
  · next escaped rest =>
      split
      · trivial
      · next notFeed =>
          have isItem : ['\\', escaped] ∈ Pattern.quotedItem '\'' :=
            Pattern.mem_quotedItem_iff.2 (.inr ⟨escaped, by simpa using notFeed, rfl⟩)
          exact Pattern.mem_quoted_iff.2 ⟨_, isItem, rfl⟩
  · next single rest _ =>
      split
      · trivial
      · next isPlain =>
          have different : single ≠ '\'' ∧ single ≠ '\\' := by simpa using isPlain
          have isItem : [single] ∈ Pattern.quotedItem '\'' :=
            Pattern.mem_quotedItem_iff.2 (.inl ⟨single, different.1, different.2, rfl⟩)
          exact Pattern.mem_quoted_iff.2 ⟨_, isItem, rfl⟩
  · trivial

theorem text_of_ofChar? {character : Char} {mark : Mark}
    (found : Mark.ofChar? character = some mark) :
    mark.text = [character] := by
  simpa using List.find?_some found

/-- The scan that a text starts with, by the class of its first character. -/
inductive Starts : Char → List Char → Scan → Prop where
  | layout (first : Char) (rest : List Char) (isLayout : isLayout first) :
      Starts first rest (gap [first] rest)
  | slash (rest : List Char) : Starts '/' rest (slash rest)
  | hyphen (rest : List Char) : Starts '-' rest (hyphen rest)
  | number (first : Char) (rest : List Char) (isDigit : isDigit first) :
      Starts first rest (number first rest)
  | upper (first : Char) (rest : List Char) (isStart : isUpperStart first) :
      Starts first rest (name .upper first rest)
  | lower (first : Char) (rest : List Char) (isStart : isLowerStart first) :
      Starts first rest (name wordToken first rest)
  | string (rest : List Char) : Starts '"' rest (string rest)
  | character (rest : List Char) : Starts '\'' rest (character rest)
  | mark (first : Char) (rest : List Char) (mark : Mark) (isWritten : mark.text = [first]) :
      Starts first rest (token (.mark mark) [first] rest)
  | symbol (first : Char) (rest : List Char) (isSymbol : isSymbol first) :
      Starts first rest (token .symbol [first] rest)
  | stray (first : Char) (rest : List Char) (isStray : ∀ rest, start first rest = stray [first]) :
      Starts first rest (stray [first])

theorem starts_start (first : Char) (rest : List Char) :
    Starts first rest (start first rest) := by
  unfold start
  split
  · next isLayout => exact .layout first rest isLayout
  · split
    · next equal => cases beq_iff_eq.1 equal; exact .slash rest
    · split
      · next equal => cases beq_iff_eq.1 equal; exact .hyphen rest
      · split
        · next isDigit => exact .number first rest isDigit
        · split
          · next isStart => exact .upper first rest isStart
          · split
            · next isStart => exact .lower first rest isStart
            · split
              · next equal => cases beq_iff_eq.1 equal; exact .string rest
              · split
                · next equal => cases beq_iff_eq.1 equal; exact .character rest
                · split
                  · next mark found => exact .mark first rest mark (text_of_ofChar? found)
                  · split
                    · next isSymbol => exact .symbol first rest isSymbol
                    · exact .stray first rest fun rest => by simp [start, *]

/-- Whatever stands first in a text, what is scanned there is a gap or a word of
the pattern of its token. -/
theorem fits_start (first : Char) (rest : List Char) : (start first rest).Fits := by
  have starts := starts_start first rest
  generalize start first rest = scan at starts ⊢
  cases starts with
  | layout _ _ isLayout => exact IsTrivium.layout [first] (by simp) (by simpa using isLayout)
  | slash => exact fits_slash rest
  | hyphen => exact fits_hyphen rest
  | number _ _ isDigit => exact fits_number isDigit rest
  | upper _ _ isStart => exact ⟨takeWhile_mem_name isStart rest, rfl⟩
  | lower _ _ isStart => exact mem_pattern_wordToken (takeWhile_mem_name isStart rest)
  | string => exact fits_string rest
  | character => exact fits_character rest
  | mark _ _ mark isWritten => exact isWritten.symm
  | symbol _ _ isSymbol => exact ⟨first, isSymbol, rfl⟩
  | stray => trivial

end Scan

end TarnBuild
