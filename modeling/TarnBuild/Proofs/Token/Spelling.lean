import TarnBuild.Proofs.Token.Tokenization

/-!
# Writing tokens one after the other

A text spells some lexemes when it is read to them in front of every text that
does not go on with a letter, a digit or an underscore.  Names and reserved
words spell themselves, marks do so in front of any text, and texts that are
put together spell the lexemes of both.
-/

namespace TarnBuild

open Text (Span byteLength)

/-- The span of a text that starts at an offset. -/
def Text.Span.ofText (offset : Nat) (text : List Char) : Span :=
  ⟨offset, offset + byteLength text⟩

/-- A text that a name in front of it does not go on with. -/
def EndsName (more : List Char) : Prop :=
  ∀ character ∈ more.head?, ¬ isNamePart character

theorem endsName_cons {next : Char} (notPart : ¬ isNamePart next) (more : List Char) :
    EndsName (next :: more) := by
  rintro _ ⟨⟩
  exact notPart

theorem endsName_mark_append (mark : Mark) (more : List Char) : EndsName (mark.text ++ more) := by
  cases mark <;> exact endsName_cons (by decide) _

theorem endsName_mark (mark : Mark) : EndsName mark.text := by
  have ends := endsName_mark_append mark []
  rwa [List.append_nil] at ends

/-- At an offset a text is read to some lexemes, whatever ends a name after it. -/
def Spells (offset : Nat) (text : List Char) (lexemes : List Lexeme) : Prop :=
  ∀ more, EndsName more →
    lexFrom offset (text ++ more) = (lexFrom (offset + byteLength text) more).map (lexemes ++ ·)

/-- A name is taken up to its end. -/
theorem Scan.name_append
    {make : String → Token} {first : Char} {rest more : List Char}
    (parts : ∀ character ∈ rest, isNamePart character)
    (ends : EndsName more) :
    name make first (rest ++ more) =
      .token (make (String.ofList (first :: rest))) (first :: rest) more := by
  have nothing : more.takeWhile isNamePart = [] ∧ more.dropWhile isNamePart = more := by
    cases more with
    | nil => exact ⟨rfl, rfl⟩
    | cons next more =>
        have notPart := ends next rfl
        exact ⟨List.takeWhile_cons_of_neg notPart, List.dropWhile_cons_of_neg notPart⟩
  rw [name, List.takeWhile_append_of_pos parts, List.dropWhile_append_of_pos parts, nothing.1,
    nothing.2, List.append_nil]

namespace Spells

variable {offset : Nat} {text : List Char} {lexemes : List Lexeme}

theorem nil (offset : Nat) : Spells offset [] [] := by
  intro more _
  show lexFrom offset more = (lexFrom offset more).map id
  cases lexFrom offset more <;> rfl

/-- A token that is taken in front of whatever ends a name spells itself. -/
theorem of_start
    {token : Token} {first : Char} {rest : List Char}
    (scan : ∀ more, EndsName more →
      Scan.start first (rest ++ more) = .token token (first :: rest) more)
    (offset : Nat) :
    Spells offset (first :: rest) [⟨token, .ofText offset (first :: rest)⟩] := by
  intro more ends
  rw [List.cons_append, lexFrom_of_token (scan more ends)]
  rfl

theorem upper {word : List Char} (isName : word ∈ Pattern.name isUpperStart) (offset : Nat) :
    Spells offset word [⟨.upper (String.ofList word), .ofText offset word⟩] := by
  cases word with
  | nil => exact (nil_notMem_charClass_mul isName).elim
  | cons first rest =>
      rcases Pattern.cons_mem_name_iff.1 isName with ⟨isStart, parts⟩
      refine of_start (fun more ends => ?_) offset
      rw [Scan.start_of_isUpperStart isStart]
      exact Scan.name_append parts ends

theorem primitive (type : Primitive) (offset : Nat) :
    Spells offset type.word.toList
      [⟨.primitive type, .ofText offset type.word.toList⟩] := by
  have isToken : Scan.wordToken (String.ofList type.word.toList) = .primitive type := by
    rw [String.ofList_toList, Scan.wordToken_primitive]
  have isName := Scan.primitive_mem_name type
  generalize type.word.toList = word at isToken isName
  cases word with
  | nil => exact (nil_notMem_charClass_mul isName).elim
  | cons first rest =>
      rcases Pattern.cons_mem_name_iff.1 isName with ⟨isStart, parts⟩
      refine of_start (fun more ends => ?_) offset
      rw [Scan.start_of_isLowerStart isStart, ← isToken]
      exact Scan.name_append parts ends

/-- A text comes after another one that its start ends. -/
theorem append
    {others : List Char} {otherLexemes : List Lexeme}
    (first : Spells offset text lexemes)
    (second : Spells (offset + byteLength text) others otherLexemes)
    (ends : EndsName others) :
    Spells offset (text ++ others) (lexemes ++ otherLexemes) := by
  intro more endsMore
  have endsBoth : EndsName (others ++ more) := by
    cases others with
    | nil => exact endsMore
    | cons => exact ends
  rw [List.append_assoc, first _ endsBoth, second _ endsMore, Text.byteLength_append,
    Nat.add_assoc]
  cases lexFrom (offset + (byteLength text + byteLength others)) more with
  | ok found => exact congrArg Except.ok (List.append_assoc _ _ _).symm
  | error error => rfl

/-- A mark can stand in front of any text. -/
theorem mark_append
    (mark : Mark)
    (others : Spells (offset + byteLength mark.text) text lexemes) :
    Spells offset (mark.text ++ text)
      (⟨.mark mark, .ofText offset mark.text⟩ :: lexemes) := by
  intro more ends
  have notEmpty : mark.text ≠ [] := by cases mark <;> simp [Mark.text]
  generalize isWritten : mark.text = written at others notEmpty
  cases written with
  | nil => exact (notEmpty rfl).elim
  | cons first rest =>
      rw [List.append_assoc, List.cons_append,
        lexFrom_of_token (Scan.start_of_mark mark isWritten _), others more ends,
        Text.byteLength_append, Nat.add_assoc]
      cases lexFrom (offset + (byteLength (first :: rest) + byteLength text)) more <;> rfl

theorem mark (mark : Mark) (offset : Nat) :
    Spells offset mark.text [⟨.mark mark, .ofText offset mark.text⟩] := by
  have spells := mark_append mark (nil (offset + byteLength mark.text))
  rwa [List.append_nil] at spells

theorem space_append
    (others : Spells (offset + 1) text lexemes) :
    Spells offset (' ' :: text) lexemes := by
  intro more ends
  have space : Scan.start ' ' (text ++ more) = .gap [' '] (text ++ more) := rfl
  rw [List.cons_append, lexFrom_of_gap space]
  refine (others more ends).trans ?_
  rw [Nat.add_assoc]
  rfl

end Spells

end TarnBuild
