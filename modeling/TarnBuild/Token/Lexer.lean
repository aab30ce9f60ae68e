import TarnBuild.Source.Fault

/-!
# Lexemes of a source

Reading proceeds from left to right.  At each place the first character
decides what can stand there: a layout character or a comment, which are
passed over, or a token, which is always taken as long as possible.  Reading
stops at the first place where neither stands.

Every step splits the remaining text into a non-empty piece and the rest, so
reading ends, and the pieces put together are the text.
-/

namespace TarnBuild

/-- The characters that separate tokens. -/
def isLayout (character : Char) : Bool :=
  character == ' ' || character == '\t' || character == '\r' ||
    character == '\n' || character == '\x0c'

/-- The digits of numbers. -/
def isDigit (character : Char) : Bool :=
  '0' ≤ character && character ≤ '9'

/-- The characters that start the name of a type, module or class. -/
def isUpperStart (character : Char) : Bool :=
  'A' ≤ character && character ≤ 'Z'

/-- The characters that start other names. -/
def isLowerStart (character : Char) : Bool :=
  ('a' ≤ character && character ≤ 'z') || character == '_'

/-- The characters that continue a name. -/
def isNamePart (character : Char) : Bool :=
  isUpperStart character || isLowerStart character || isDigit character

/-- The operator characters without a meaning in the grammar. -/
def isSymbol (character : Char) : Bool :=
  ['+', '-', '*', '/', '%', '!', '&', '|', '^', '~', '?', '.', '@', '\\'].contains
    character

/-- Split a text after the first closing of a comment. -/
def splitComment? : List Char → Option (List Char × List Char)
  | [] => none
  | '*' :: '/' :: rest => some (['*', '/'], rest)
  | character :: rest =>
      (splitComment? rest).map fun split => (character :: split.1, split.2)

/-- Split a text into the items of a string literal that it starts with and
the rest.  An item is a character other than a quote and a backslash, or a
backslash with any character but a line feed after it. -/
def splitItems : List Char → List Char × List Char
  | [] => ([], [])
  | '"' :: rest => ([], '"' :: rest)
  | '\\' :: [] => ([], ['\\'])
  | '\\' :: escaped :: rest =>
      if escaped == '\n' then
        ([], '\\' :: escaped :: rest)
      else
        let split := splitItems rest
        ('\\' :: escaped :: split.1, split.2)
  | character :: rest =>
      let split := splitItems rest
      (character :: split.1, split.2)

/-- What stands at the start of a text. -/
inductive Scan where
  /-- A layout character or a comment, before the rest. -/
  | gap (skipped rest : List Char)
  /-- A token, with its text, before the rest. -/
  | token (token : Token) (text rest : List Char)
  /-- A comment that is not closed. -/
  | openComment
  /-- Characters that are no token. -/
  | stray (characters : List Char)
  deriving DecidableEq, Repr

namespace Scan

/-- What a slash starts: a comment or an operator. -/
def slash : List Char → Scan
  | '/' :: rest =>
      gap ('/' :: '/' :: rest.takeWhile (· != '\n')) (rest.dropWhile (· != '\n'))
  | '*' :: rest =>
      match splitComment? rest with
      | some (comment, after) => gap ('/' :: '*' :: comment) after
      | none => openComment
  | rest => token .symbol ['/'] rest

/-- What a hyphen starts: an arrow or an operator. -/
def hyphen : List Char → Scan
  | '>' :: rest => token (.mark .arrow) ['-', '>'] rest
  | rest => token .symbol ['-'] rest

/-- What a digit starts: a number, with a decimal point if a digit follows it. -/
def number (digit : Char) (rest : List Char) : Scan :=
  let whole := digit :: rest.takeWhile isDigit
  match rest.dropWhile isDigit with
  | '.' :: first :: after =>
      if isDigit first then
        token .floatLiteral
          (whole ++ '.' :: first :: after.takeWhile isDigit)
          (after.dropWhile isDigit)
      else
        token .integerLiteral whole ('.' :: first :: after)
  | after => token .integerLiteral whole after

/-- The token that a word is: a reserved word, or the name of a value. -/
def wordToken (word : String) : Token :=
  match Keyword.ofWord? word with
  | some keyword => .keyword keyword
  | none =>
      match Primitive.ofWord? word with
      | some primitive => .primitive primitive
      | none => .lower word

/-- What the start of a name starts. -/
def name (make : String → Token) (first : Char) (rest : List Char) : Scan :=
  let text := first :: rest.takeWhile isNamePart
  token (make (String.ofList text)) text (rest.dropWhile isNamePart)

/-- What a quotation mark starts: a string literal, if it is closed. -/
def string (rest : List Char) : Scan :=
  match splitItems rest with
  | (items, '"' :: after) => token .stringLiteral ('"' :: items ++ ['"']) after
  | (items, _) => stray ('"' :: items)

/-- What an apostrophe starts: a character literal, if it is closed after one
character, or after a backslash and any character but a line feed. -/
def character : List Char → Scan
  | '\\' :: escaped :: '\'' :: rest =>
      if escaped == '\n' then
        stray ['\'']
      else
        token .charLiteral ['\'', '\\', escaped, '\''] rest
  | single :: '\'' :: rest =>
      if single == '\'' || single == '\\' then
        stray ['\'']
      else
        token .charLiteral ['\'', single, '\''] rest
  | _ => stray ['\'']

/-- What stands at the start of a text, given its first character. -/
def start (first : Char) (rest : List Char) : Scan :=
  if isLayout first then gap [first] rest
  else if first == '/' then slash rest
  else if first == '-' then hyphen rest
  else if isDigit first then number first rest
  else if isUpperStart first then name .upper first rest
  else if isLowerStart first then name wordToken first rest
  else if first == '"' then string rest
  else if first == '\'' then character rest
  else
    match Mark.ofChar? first with
    | some mark => token (.mark mark) [first] rest
    | none => if isSymbol first then token .symbol [first] rest else stray [first]

end Scan

theorem append_of_splitComment?
    {text comment rest : List Char}
    (split : splitComment? text = some (comment, rest)) :
    comment ++ rest = text := by
  fun_induction splitComment? text generalizing comment rest with
  | case1 => cases split
  | case2 => cases split; rfl
  | case3 character tail _ ih =>
      obtain ⟨⟨first, second⟩, inner, equation⟩ := Option.map_eq_some_iff.1 split
      cases equation
      simp [ih inner]

@[simp]
theorem splitItems_append (text : List Char) :
    (splitItems text).1 ++ (splitItems text).2 = text := by
  fun_induction splitItems text <;> simp_all +zetaDelta

namespace Scan

/-- A scan splits a text when the piece that it takes is not empty and stands
before the rest. -/
def Splits (text : List Char) : Scan → Prop
  | gap skipped rest => skipped ≠ [] ∧ skipped ++ rest = text
  | token _ piece rest => piece ≠ [] ∧ piece ++ rest = text
  | openComment => True
  | stray characters => characters ≠ [] ∧ characters <+: text

theorem splits_slash (rest : List Char) : (slash rest).Splits ('/' :: rest) := by
  unfold slash
  split
  · simp [Splits]
  · split
    · next equation => simp [Splits, append_of_splitComment? equation]
    · trivial
  · simp [Splits]

theorem splits_hyphen (rest : List Char) : (hyphen rest).Splits ('-' :: rest) := by
  unfold hyphen
  split <;> simp [Splits]

theorem splits_number (digit : Char) (rest : List Char) :
    (number digit rest).Splits (digit :: rest) := by
  have whole := List.takeWhile_append_dropWhile (p := isDigit) (l := rest)
  unfold number
  split
  · next first after equation =>
      split <;> simp_all [Splits]
  · simp [Splits]

theorem splits_name (make : String → Token) (first : Char) (rest : List Char) :
    (name make first rest).Splits (first :: rest) := by
  simp [name, Splits]

theorem splits_string (rest : List Char) : (string rest).Splits ('"' :: rest) := by
  have whole := splitItems_append rest
  unfold string
  split
  · next items after equation =>
      rw [equation] at whole
      simp [Splits, whole]
  · next items after _ equation =>
      rw [equation] at whole
      exact ⟨by simp, after, by simp [whole]⟩

theorem splits_character (rest : List Char) :
    (character rest).Splits ('\'' :: rest) := by
  unfold character
  split
  · split <;> simp [Splits]
  · split <;> simp [Splits]
  · simp [Splits]

/-- Whatever stands at the start of a text is a non-empty piece of it. -/
theorem splits_start (first : Char) (rest : List Char) :
    (start first rest).Splits (first :: rest) := by
  unfold start
  split
  · simp [Splits]
  · split
    · next equal => rw [beq_iff_eq.1 equal]; exact splits_slash rest
    · split
      · next equal => rw [beq_iff_eq.1 equal]; exact splits_hyphen rest
      · split
        · exact splits_number first rest
        · split
          · exact splits_name _ first rest
          · split
            · exact splits_name _ first rest
            · split
              · next equal => rw [beq_iff_eq.1 equal]; exact splits_string rest
              · split
                · next equal => rw [beq_iff_eq.1 equal]; exact splits_character rest
                · split
                  · simp [Splits]
                  · split <;> simp [Splits]

theorem length_of_start_gap
    {first : Char} {text skipped rest : List Char}
    (scan : start first text = gap skipped rest) :
    rest.length < (first :: text).length := by
  have split := splits_start first text
  rw [scan] at split
  have positive := List.length_pos_iff.2 split.1
  rw [← split.2, List.length_append]
  omega

theorem length_of_start_token
    {first : Char} {text piece rest : List Char} {token : Token}
    (scan : start first text = .token token piece rest) :
    rest.length < (first :: text).length := by
  have split := splits_start first text
  rw [scan] at split
  have positive := List.length_pos_iff.2 split.1
  rw [← split.2, List.length_append]
  omega

end Scan

/-- The lexemes of a text that starts at a given offset of its source. -/
def lexFrom (offset : Nat) (text : List Char) : Except SourceError (List Lexeme) :=
  match text with
  | [] => .ok []
  | first :: rest =>
      match _scan : Scan.start first rest with
      | .gap skipped after => lexFrom (offset + Text.byteLength skipped) after
      | .token token piece after =>
          let next := offset + Text.byteLength piece
          match lexFrom next after with
          | .ok lexemes => .ok (⟨token, ⟨offset, next⟩⟩ :: lexemes)
          | .error error => .error error
      | .openComment =>
          .error ⟨.unterminatedComment,
            ⟨offset, offset + Text.byteLength (first :: rest)⟩⟩
      | .stray characters =>
          .error ⟨.unexpectedCharacters characters,
            ⟨offset, offset + Text.byteLength characters⟩⟩
termination_by text.length
decreasing_by
  · exact Scan.length_of_start_gap _scan
  · exact Scan.length_of_start_token _scan

/-- The lexemes of a source. -/
def lex (source : List Char) : Except SourceError (List Lexeme) :=
  lexFrom 0 source

end TarnBuild
