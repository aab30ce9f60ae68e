import TarnBuild.Proofs.Grammar.Expression
import TarnBuild.Proofs.Parser.Agreement

/-!
# Parsing looks at tokens only

Two sources with the same tokens are both read as units or both rejected.  The
units are the same up to the texts of values and bodies, and the errors are
the same up to the places of the lexeme at which they are found.  What stands
in comments and in literals, and how the tokens are laid out, cannot decide
anything else.
-/

namespace TarnBuild

/-! ## Units without texts -/

/-- A constant with the text of its value left empty. -/
def Constant.withoutText (constant : Constant) : Constant :=
  { constant with value := "" }

/-- A function with the text of its body left empty. -/
def Function.withoutText (function : Function) : Function :=
  { function with body := "" }

namespace Construct

mutual

/-- The construct with the texts of all values and bodies in it left empty. -/
def withoutTexts : Construct → Construct
  | ⟨name, kind, typeParameters, constants, functions, nested⟩ =>
      { name, kind, typeParameters
        constants := constants.map Constant.withoutText
        functions := functions.map Function.withoutText
        nested := listWithoutTexts nested }

/-- Constructs with the texts of all values and bodies in them left empty. -/
def listWithoutTexts : List Construct → List Construct
  | [] => []
  | construct :: rest => withoutTexts construct :: listWithoutTexts rest

end

@[simp]
theorem listWithoutTexts_eq (constructs : List Construct) :
    listWithoutTexts constructs = constructs.map withoutTexts := by
  induction constructs with
  | nil => rfl
  | cons construct rest ih => rw [listWithoutTexts, ih, List.map_cons]

end Construct

/-- A member with all texts in it left empty. -/
def Member.withoutTexts : Member → Member
  | constant member => constant member.withoutText
  | function member => function member.withoutText
  | nested member => nested member.withoutTexts

/-- A unit with the texts of all values and bodies in it left empty. -/
def CompilationUnit.withoutTexts (unit : CompilationUnit) : CompilationUnit :=
  { unit with body := unit.body.withoutTexts }

/-- Texts may be left out before or after the members are sorted into a
construct. -/
theorem Construct.withoutTexts_ofMembers
    (name : String) (kind : ConstructKind) (typeParameters : List String)
    (members : List Member) :
    (ofMembers name kind typeParameters members).withoutTexts =
      ofMembers name kind typeParameters (members.map Member.withoutTexts) := by
  have constants : (members.filterMap Member.constant?).map Constant.withoutText =
      (members.map Member.withoutTexts).filterMap Member.constant? := by
    rw [List.filterMap_map, List.map_filterMap]
    exact congrArg (List.filterMap · members) (funext fun member => by cases member <;> rfl)
  have functions : (members.filterMap Member.function?).map Function.withoutText =
      (members.map Member.withoutTexts).filterMap Member.function? := by
    rw [List.filterMap_map, List.map_filterMap]
    exact congrArg (List.filterMap · members) (funext fun member => by cases member <;> rfl)
  have nested : (members.filterMap Member.nested?).map withoutTexts =
      (members.map Member.withoutTexts).filterMap Member.nested? := by
    rw [List.filterMap_map, List.map_filterMap]
    exact congrArg (List.filterMap · members) (funext fun member => by cases member <;> rfl)
  rw [ofMembers, withoutTexts, constants, functions, listWithoutTexts_eq, nested]
  rfl

namespace Twins

variable {twins : Twins}

/-! ## Types -/

/-- Types hold no texts, so equal tokens give equal types. -/
theorem agree_typeUpTo (bound : Nat) :
    twins.Agree Eq (Parser.typeUpTo bound) (Parser.typeUpTo bound) := by
  induction bound with
  | zero => exact (agree_unexpected _).nested
  | succ bound ih =>
      refine Agree.nested (agree_peek.bind_eq fun found => ?_)
      split
      · exact agree_advance.bind_eq fun _ => agree_pure rfl
      · refine agree_advance.bind_eq fun _ => ?_
        refine (agree_eat _).bind_eq fun _ => agree_ite ?_ (agree_pure rfl)
        exact (agree_commaList ih _ _).bind_eq fun arguments => agree_pure rfl
      · refine agree_advance.bind_eq fun _ => ?_
        refine (agree_parenList ih).bind_eq fun elements => ?_
        refine (agree_eat _).bind_eq fun _ => agree_ite ?_ (agree_pure rfl)
        exact ih.bind_eq fun result => agree_pure rfl
      · exact agree_unexpected _

theorem agree_type : twins.Agree Eq Parser.type Parser.type :=
  agree_withRemaining agree_typeUpTo

theorem agree_typeParameters :
    twins.Agree Eq Parser.typeParameters Parser.typeParameters :=
  (agree_eat _).bind_eq fun _ =>
    agree_ite (agree_commaList (agree_upperName _) _ _) (agree_pure rfl)

theorem agree_annotation : twins.Agree Eq Parser.annotation Parser.annotation :=
  (agree_eat _).bind_eq fun _ =>
    agree_ite (agree_type.bind_eq fun _ => agree_pure rfl) (agree_pure rfl)

theorem agree_parameter : twins.Agree Eq Parser.parameter Parser.parameter := by
  refine (agree_lowerName _).bind_eq fun name => ?_
  refine (agree_expect _ _).bind_eq fun _ => ?_
  exact agree_type.bind_eq fun annotation => agree_pure rfl

/-! ## Expressions -/

/-- How many lexemes an expression takes, and how many delimiters it leaves
open, depends on their tokens. -/
theorem expressionRun_of_tokens_eq
    (depth : Nat) {lexemes others : List Lexeme}
    (same : lexemes.map Lexeme.token = others.map Lexeme.token) :
    (expressionRun depth lexemes).taken.length = (expressionRun depth others).taken.length ∧
      (expressionRun depth lexemes).depth = (expressionRun depth others).depth := by
  induction lexemes generalizing depth others with
  | nil =>
      rw [List.map_eq_nil_iff.1 same.symm]
      exact ⟨rfl, rfl⟩
  | cons lexeme lexemes ih =>
      cases others with
      | nil => cases same
      | cons other others =>
          rcases List.cons.inj same with ⟨sameToken, sameTokens⟩
          simp only [expressionRun, sameToken]
          cases openAfter depth other.token with
          | none => exact ⟨rfl, rfl⟩
          | some after =>
              rcases ih after sameTokens with ⟨sameLength, sameDepth⟩
              exact ⟨congrArg (· + 1) sameLength, sameDepth⟩

/-- What follows an expression is found by its length alone. -/
theorem rest_expressionRun (depth : Nat) (lexemes : List Lexeme) :
    (expressionRun depth lexemes).rest =
      lexemes.drop (expressionRun depth lexemes).taken.length := by
  have split := (continues_of_expressionRun depth lexemes).1
  generalize expressionRun depth lexemes = run at split ⊢
  rw [split, List.drop_left]

/-- A run of lexemes covers no text only if it is empty. -/
theorem coveredText?_eq_none_iff {source : List Char} {lexemes : List Lexeme} :
    coveredText? source lexemes = none ↔ lexemes.length = 0 := by
  cases lexemes with
  | nil => simp [coveredText?]
  | cons lexeme lexemes => simp [coveredText?, List.getLast?_cons]

/-- Only the texts of two expressions differ. -/
theorem agree_expression :
    twins.Agree (fun _ _ => True) Parser.expression Parser.expression := by
  intro cursor other level
  have same := expressionRun_of_tokens_eq 0 level.tokens_eq
  have after := level.drop (expressionRun 0 cursor.rest).taken.length cursor.depth
  rw [← rest_expressionRun, same.1, ← rest_expressionRun, level.depth_eq] at after
  unfold Parser.expression
  dsimp only
  rw [same.2, level.depth_eq]
  split
  · exact agree_unexpected _ _ _ after
  · have nothing : coveredText? twins.first.source (expressionRun 0 cursor.rest).taken = none ↔
        coveredText? twins.second.source (expressionRun 0 other.rest).taken = none := by
      rw [coveredText?_eq_none_iff, coveredText?_eq_none_iff, same.1]
    split
    · next text found =>
        split
        · exact .done _ _ _ _ trivial after
        · next empty => simp [nothing.2 empty] at found
    · next empty =>
        rw [nothing.1 empty]
        exact agree_unexpected _ _ _ after

/-! ## Constants and functions -/

/-- Two constants read at the same lexeme differ only in the text of their
value. -/
theorem agree_constant (visibility : Visibility) :
    twins.Agree (InvImage Eq Constant.withoutText)
      (Parser.constant visibility) (Parser.constant visibility) := by
  refine (agree_lowerName _).bind_eq fun name => ?_
  refine agree_annotation.bind_eq fun annotation => ?_
  refine (agree_expect _ _).bind_eq fun _ => ?_
  exact agree_expression.bind fun value otherValue _ => agree_pure rfl

/-- Two functions read at the same lexeme differ only in the text of their body. -/
theorem agree_function (visibility : Visibility) :
    twins.Agree (InvImage Eq Function.withoutText)
      (Parser.function visibility) (Parser.function visibility) := by
  refine (agree_lowerName _).bind_eq fun name => ?_
  refine agree_typeParameters.bind_eq fun typeParameters => ?_
  refine (agree_expect _ _).bind_eq fun _ => ?_
  refine (agree_parenList agree_parameter).bind_eq fun parameters => ?_
  refine (agree_expect _ _).bind_eq fun _ => ?_
  refine agree_type.bind_eq fun result => ?_
  refine (agree_expect _ _).bind_eq fun _ => ?_
  exact agree_expression.bind fun body otherBody _ => agree_pure rfl

/-! ## Members and constructs -/

/-- The token after the visibility decides on both sides what the member is. -/
theorem agree_ownMember :
    twins.Agree (InvImage Eq Member.withoutTexts) Parser.ownMember Parser.ownMember := by
  refine (agree_eat _).bind_eq fun isPrivate => ?_
  refine agree_peek.bind_eq fun found => ?_
  split
  · refine agree_advance.bind_eq fun _ => ?_
    refine (agree_constant _).bind fun constant other same => ?_
    exact (agree_discard_eat _).bind_eq fun _ => agree_pure (congrArg Member.constant same)
  · refine agree_advance.bind_eq fun _ => ?_
    refine (agree_function _).bind fun function other same => ?_
    exact (agree_discard_eat _).bind_eq fun _ => agree_pure (congrArg Member.function same)
  · exact agree_unexpected _

/-- Members agree up to texts if the constructs among them do. -/
theorem agree_membersUpTo
    {inner : Parser Construct}
    (innerAgrees : twins.Agree (InvImage Eq Construct.withoutTexts) inner inner)
    (bound : Nat) :
    twins.Agree (InvImage Eq (List.map Member.withoutTexts))
      (Parser.membersUpTo inner bound) (Parser.membersUpTo inner bound) := by
  have cons {first other : Member} {others otherOthers : List Member}
      (sameFirst : first.withoutTexts = other.withoutTexts)
      (sameOthers : InvImage Eq (List.map Member.withoutTexts) others otherOthers) :
      InvImage Eq (List.map Member.withoutTexts) (first :: others) (other :: otherOthers) :=
    List.cons_eq_cons.2 ⟨sameFirst, sameOthers⟩
  induction bound with
  | zero => exact agree_unexpected _
  | succ bound ih =>
      have nested : twins.Agree (InvImage Eq (List.map Member.withoutTexts))
          (do return .nested (← inner) :: (← Parser.membersUpTo inner bound))
          (do return .nested (← inner) :: (← Parser.membersUpTo inner bound)) := by
        refine innerAgrees.bind fun construct other same => ?_
        refine ih.bind fun others otherOthers sameOthers => agree_pure ?_
        exact cons (congrArg Member.nested same) sameOthers
      refine agree_peek.bind_eq fun found => ?_
      split
      · exact agree_advance.bind_eq fun _ => agree_pure rfl
      · exact nested
      · exact nested
      · refine agree_ownMember.bind fun first other same => ?_
        exact ih.bind fun others otherOthers sameOthers => agree_pure (cons same sameOthers)
      · exact agree_unexpected _

theorem agree_constructKind :
    twins.Agree Eq Parser.constructKind Parser.constructKind := by
  refine agree_peek.bind_eq fun found => ?_
  split
  · exact agree_advance.bind_eq fun _ => agree_pure rfl
  · exact agree_advance.bind_eq fun _ => agree_pure rfl
  · exact agree_unexpected _

/-- Constructs agree up to texts, by induction on the levels that may still be
opened. -/
theorem agree_constructUpTo (bound : Nat) :
    twins.Agree (InvImage Eq Construct.withoutTexts)
      (Parser.constructUpTo bound) (Parser.constructUpTo bound) := by
  induction bound with
  | zero => exact (agree_unexpected _).nested
  | succ bound ih =>
      refine Agree.nested (agree_constructKind.bind_eq fun kind => ?_)
      refine (agree_upperName _).bind_eq fun name => ?_
      refine agree_typeParameters.bind_eq fun typeParameters => ?_
      refine (agree_expect _ _).bind_eq fun _ => ?_
      refine (agree_withRemaining (agree_membersUpTo ih)).bind fun members others same => ?_
      refine agree_pure ?_
      rw [InvImage, Construct.withoutTexts_ofMembers, Construct.withoutTexts_ofMembers]
      exact congrArg _ same

/-! ## Units -/

theorem agree_imports : twins.Agree Eq Parser.imports Parser.imports := by
  refine agree_withRemaining (agree_repeatAfter _ ?_)
  refine (agree_upperName _).bind_eq fun name => ?_
  exact (agree_discard_eat _).bind_eq fun _ => agree_pure rfl

/-- The texts say nothing about the kind of a construct. -/
theorem kind_withoutTexts (construct : Construct) :
    construct.withoutTexts.kind = construct.kind := by
  cases construct
  rw [Construct.withoutTexts]

/-- Units agree up to texts.  A token after the construct is rejected on both
sides, and the message names the same kind. -/
theorem agree_unit :
    twins.Agree (InvImage Eq CompilationUnit.withoutTexts) Parser.unit Parser.unit := by
  refine agree_imports.bind_eq fun imports => ?_
  refine (agree_withRemaining agree_constructUpTo).bind fun body other same => ?_
  refine agree_peek.bind_eq fun found => ?_
  cases found with
  | some token =>
      have sameKind : body.kind = other.kind := by
        rw [← kind_withoutTexts body, ← kind_withoutTexts other, same]
      dsimp only
      rw [sameKind]
      exact agree_fail _
  | none => exact agree_pure (congrArg (CompilationUnit.mk _) same)

end Twins

/-! ## Answers -/

/-- Two answers about two sources with the given lexemes differ in texts and
places only. -/
inductive AnswersAlike (source other : List Char) (lexemes others : List Lexeme) :
    Except SourceError CompilationUnit → Except SourceError CompilationUnit → Prop where
  | accepted (unit otherUnit : CompilationUnit)
      (same : unit.withoutTexts = otherUnit.withoutTexts) :
      AnswersAlike source other lexemes others (.ok unit) (.ok otherUnit)
  | rejectedAt (fault : SourceFault) (index : Nat) (lexeme otherLexeme : Lexeme)
      (isFound : lexemes[index]? = some lexeme)
      (isOtherFound : others[index]? = some otherLexeme) :
      AnswersAlike source other lexemes others
        (.error ⟨fault, lexeme.span⟩) (.error ⟨fault, otherLexeme.span⟩)
  | rejectedAtEnd (fault : SourceFault) :
      AnswersAlike source other lexemes others
        (.error ⟨fault, ⟨Text.byteLength source, Text.byteLength source⟩⟩)
        (.error ⟨fault, ⟨Text.byteLength other, Text.byteLength other⟩⟩)

/-- Parsers that end alike give answers that are alike: a fault stands at the
same lexeme in both sources, or at the end of both. -/
theorem Twins.Ends.answersAlike
    {twins : Twins} {outcome otherOutcome : Outcome CompilationUnit}
    (ends : twins.Ends (InvImage Eq CompilationUnit.withoutTexts) outcome otherOutcome) :
    AnswersAlike twins.first.source twins.second.source twins.firstLexemes
      twins.secondLexemes outcome.result otherOutcome.result := by
  cases ends with
  | done unit otherUnit _ _ same => exact .accepted unit otherUnit same
  | failed fault cursor other level =>
      rcases cursor with ⟨rest, depth⟩
      rcases other with ⟨otherRest, otherDepth⟩
      rcases level.exists_index with ⟨index, rfl, rfl⟩
      have sameToken := level.token?_eq
      have isFound (lexemes : List Lexeme) {lexeme : Lexeme} {rest : List Lexeme}
          (same : lexemes.drop index = lexeme :: rest) : lexemes[index]? = some lexeme := by
        rw [← List.head?_drop, same, List.head?_cons]
      cases rest : twins.firstLexemes.drop index with
      | nil =>
          cases otherRest : twins.secondLexemes.drop index with
          | nil => exact .rejectedAtEnd fault
          | cons => simp [Cursor.token?, rest, otherRest] at sameToken
      | cons lexeme rest =>
          cases otherRest : twins.secondLexemes.drop index with
          | nil => simp [Cursor.token?, *] at sameToken
          | cons otherLexeme otherRest =>
              exact .rejectedAt fault index lexeme otherLexeme (isFound _ ‹_›) (isFound _ ‹_›)

/-- Sources with the same tokens are answered alike. -/
theorem parse_answersAlike
    {source other : List Char} {lexemes others : List Lexeme}
    (isLexed : lex source = .ok lexemes)
    (isOtherLexed : lex other = .ok others)
    (sameTokens : lexemes.map Lexeme.token = others.map Lexeme.token) :
    AnswersAlike source other lexemes others (parse source) (parse other) := by
  let twins : Twins :=
    { first := ⟨source, some nestingLimit⟩
      second := ⟨other, some nestingLimit⟩
      firstLexemes := lexemes
      secondLexemes := others
      limit_eq := rfl
      tokens_eq := sameTokens }
  have ends := Twins.agree_unit _ _ (Twins.Level.start twins 0)
  simp only [parse, parseWithin, isLexed, isOtherLexed]
  exact ends.answersAlike

/-- Both sources lack an opening brace, though the second has one in a comment. -/
theorem hidden_brace_answersAlike :
    let source := "class A )".toList
    let other := "class A/*\x7b*/)".toList
    ∃ lexemes others, lex source = .ok lexemes ∧ lex other = .ok others ∧
      lexemes.map Lexeme.token = others.map Lexeme.token ∧
      AnswersAlike source other lexemes others (parse source) (parse other) := by
  intro source other
  have isLexed : lex source = .ok
      [⟨.keyword .classWord, ⟨0, 5⟩⟩, ⟨.upper "A", ⟨6, 7⟩⟩, ⟨.mark .rightParen, ⟨8, 9⟩⟩] := by
    decide +kernel
  have isOtherLexed : lex other = .ok
      [⟨.keyword .classWord, ⟨0, 5⟩⟩, ⟨.upper "A", ⟨6, 7⟩⟩, ⟨.mark .rightParen, ⟨12, 13⟩⟩] := by
    decide +kernel
  exact ⟨_, _, isLexed, isOtherLexed, rfl, parse_answersAlike isLexed isOtherLexed rfl⟩

end TarnBuild
