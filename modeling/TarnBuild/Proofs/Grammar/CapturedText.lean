import TarnBuild.Proofs.Grammar.Contents
import TarnBuild.Proofs.Grammar.Parse
import TarnBuild.Proofs.Grammar.TokensOnly
import TarnBuild.Proofs.Token.Excerpt

/-!
# Texts of expressions

What is kept of an expression is the text from its first to its last lexeme,
nothing of which is lost by trimming.  By itself this text is read to the
lexemes of the expression again, so that it can be written as the value of a
constant in another source and is kept as the same text.
-/

namespace TarnBuild

open Text (Span byteLength)

/-- The text of an expression is the excerpt from its first to its last lexeme. -/
theorem ExpressionTree.text_eq
    {source piece : List Char} {tree : ExpressionTree}
    (isExcerpt : IsExcerpt source tree.lexemes piece) :
    tree.text source = String.ofList piece := by
  rw [text]
  show String.ofList (Text.trimmed (Text.slice source _)) = _
  rw [isExcerpt.slice_eq, isExcerpt.trimmed_eq]

/-- Only the tokens of some lexemes make them an expression. -/
theorem IsExpression.of_tokens_eq
    {lexemes others : List Lexeme}
    (isExpression : IsExpression lexemes)
    (same : lexemes.map Lexeme.token = others.map Lexeme.token) :
    IsExpression others := by
  rcases isExpression_iff.1 isExpression with ⟨nonempty, continues, closed⟩
  have run : expressionRun 0 (lexemes ++ []) = ⟨lexemes, [], 0⟩ :=
    expressionRun_of_continues continues (by simpa using closed) nofun
  rcases Twins.expressionRun_of_tokens_eq 0 same with ⟨sameLength, sameDepth⟩
  rcases continues_of_expressionRun 0 others with ⟨split, othersContinue, depth_eq⟩
  rw [List.append_nil] at run
  rw [run] at sameLength sameDepth
  dsimp only at sameLength sameDepth
  -- The run takes as many lexemes as there are, so it takes all of them.
  have nothingLeft : (expressionRun 0 others).rest = [] := by
    have lengths := congrArg List.length split
    have count := congrArg List.length same
    rw [List.length_append] at lengths
    rw [List.length_map, List.length_map] at count
    exact List.eq_nil_of_length_eq_zero (by omega)
  rw [nothingLeft, List.append_nil] at split
  rw [← split] at othersContinue depth_eq
  refine isExpression_iff.2 ⟨?_, othersContinue, ?_⟩
  · rintro rfl
    exact nonempty (List.map_eq_nil_iff.1 same)
  · rw [← sameDepth] at depth_eq
    simpa using depth_eq.symm

/-! ## A source with one constant -/

/-- The unit of a module with nothing in it but a constant. -/
def CompilationUnit.ofConstant (constant : Constant) : CompilationUnit where
  imports := NameSet.ofList []
  body := { Construct.bare "M" .moduleKind with constants := [constant] }

/-- The tree of such a module, up to the name of the constant at fixed places. -/
def UnitTree.ofConstant (declared : AnnotationTree) (equal : Span) (value : ExpressionTree)
    (right : Span) : UnitTree where
  imports := []
  body := .mk ⟨.moduleKind, ⟨0, 6⟩, "M", ⟨7, 8⟩, .absent, ⟨9, 10⟩⟩
    (.own ⟨none, .constant ⟨11, 14⟩ ⟨"x", ⟨15, 16⟩, declared, equal, value⟩, none⟩
      (.close right))

theorem UnitTree.lexemes_ofConstant (declared : AnnotationTree) (equal : Span)
    (value : ExpressionTree) (right : Span) :
    (ofConstant declared equal value right).lexemes =
      [⟨.keyword .moduleWord, ⟨0, 6⟩⟩, ⟨.upper "M", ⟨7, 8⟩⟩, ⟨.mark .leftBrace, ⟨9, 10⟩⟩,
        ⟨.keyword .valWord, ⟨11, 14⟩⟩, ⟨.lower "x", ⟨15, 16⟩⟩] ++
        (declared.lexemes ++ ⟨.mark .equal, equal⟩ ::
          (value.lexemes ++ [⟨.mark .rightBrace, right⟩])) := by
  simp [ofConstant, lexemes, ConstructTree.lexemes, HeadTree.lexemes, ConstructKind.keyword,
    TypeParametersTree.lexemes, MembersTree.lexemes, OwnMemberTree.lexemes, optionalLexeme,
    DeclarationTree.lexemes, ConstantTree.lexemes]

/-- A source with the lexemes of a module with one constant is read as that
module. -/
theorem parse_of_lex_eq_ofConstant
    {source : List Char} {declared : AnnotationTree} {equal right : Span}
    {value : ExpressionTree}
    (isLexed : lex source = .ok (UnitTree.ofConstant declared equal value right).lexemes)
    (hasRoom : declared.height ≤ nestingLimit - 1) :
    parse source = .ok (.ofConstant ⟨"x", .visible, declared.type?, value.text source⟩) := by
  rw [parse, parseWithin_eq_ok_iff]
  refine ⟨_, isLexed, ?_, rfl⟩
  rintro most ⟨⟩
  show max declared.height 0 + 1 ≤ nestingLimit
  rw [Nat.max_zero]
  exact Nat.add_le_of_le_sub (by decide) hasRoom

/-! ## Texts as values -/

/-- At another place the tokens of an expression are an expression, too. -/
theorem IsExpression.moved
    {lexemes own : List Lexeme} {start : Nat}
    (isExpression : IsExpression lexemes)
    (same : own.map (Lexeme.shift start) = lexemes) (distance : Nat) :
    IsExpression (own.map (Lexeme.shift distance)) := by
  refine isExpression.of_tokens_eq ?_
  rw [← same, List.map_map, List.map_map]
  rfl

/-- The lexemes of a source in which a constant has an excerpt as its value. -/
theorem IsExcerpt.lex_ofConstant
    {source piece : List Char} {lexemes own : List Lexeme}
    (isExcerpt : IsExcerpt source lexemes piece)
    (isRead : lex piece = .ok own)
    (isValue : IsExpression (own.map (Lexeme.shift 19))) :
    let stop := 19 + byteLength piece
    lex ("module M \x7b val x = ".toList ++ piece ++ " \x7d".toList) =
      .ok (UnitTree.ofConstant .absent ⟨17, 18⟩ ⟨_, isValue⟩ ⟨1 + stop, 2 + stop⟩).lexemes := by
  intro stop
  have frontRead : lex "module M \x7b val x =".toList =
      .ok [⟨.keyword .moduleWord, ⟨0, 6⟩⟩, ⟨.upper "M", ⟨7, 8⟩⟩, ⟨.mark .leftBrace, ⟨9, 10⟩⟩,
        ⟨.keyword .valWord, ⟨11, 14⟩⟩, ⟨.lower "x", ⟨15, 16⟩⟩, ⟨.mark .equal, ⟨17, 18⟩⟩] := by
    decide +kernel
  have backRead : lex " \x7d".toList = .ok [⟨.mark .rightBrace, ⟨1, 2⟩⟩] := by decide +kernel
  have spaced : "module M \x7b val x = ".toList = "module M \x7b val x =".toList ++ [' '] := by
    decide +kernel
  have ofFront := lex_append_space_append frontRead rfl (piece ++ " \x7d".toList)
  have ofPiece : lexFrom 19 (piece ++ " \x7d".toList) =
      (lexFrom stop " \x7d".toList).map (own.map (Lexeme.shift 19) ++ ·) :=
    isExcerpt.lexFrom_append isRead 19 (by decide) ['\x7d']
  rw [lexFrom_eq_shiftAnswer stop, backRead] at ofPiece
  rw [show byteLength "module M \x7b val x =".toList + 1 = 19 from rfl, ofPiece] at ofFront
  rw [UnitTree.lexemes_ofConstant, spaced, List.append_assoc, List.append_assoc,
    List.singleton_append]
  exact ofFront

/-- An excerpt that is an expression can be the value of a constant, and is kept
as it is. -/
theorem IsExcerpt.parse_ofConstant
    {source piece : List Char} {lexemes : List Lexeme}
    (isExcerpt : IsExcerpt source lexemes piece)
    (isExpression : IsExpression lexemes) :
    parse ("module M \x7b val x = ".toList ++ piece ++ " \x7d".toList) =
      .ok (.ofConstant ⟨"x", .visible, none, String.ofList piece⟩) := by
  rcases isExcerpt.exists_lex_eq_ok with ⟨own, isRead, same⟩
  have isLexed := isExcerpt.lex_ofConstant isRead (isExpression.moved same 19)
  have moved := isExcerpt.moved isRead "module M \x7b val x = ".toList " \x7d".toList
  rw [parse_of_lex_eq_ofConstant isLexed (by decide), ExpressionTree.text_eq moved]
  rfl

/-- What a unit keeps of an expression is the text of the source from the first
to the last lexeme of the expression.  This text is not empty, is read to the
lexemes of the expression again, and as the value of a constant is kept as it
is. -/
theorem captured_text_is_excerpt
    {source : List Char} {unit : CompilationUnit} {text : String}
    (parsed : parse source = .ok unit)
    (isCaptured : text ∈ unit.body.expressions) :
    ∃ tree : UnitTree, lex source = .ok tree.lexemes ∧ tree.unit source = unit ∧
      ∃ expression ∈ tree.body.expressions,
        let first := expression.lexemes.head expression.isExpression.nonempty
        let last := expression.lexemes.getLast expression.isExpression.nonempty
        text ≠ "" ∧
        (∃ before after,
          Cut source ⟨first.span.start, last.span.stop⟩ before text.toList after) ∧
        (∃ own, lex text.toList = .ok own ∧
          own.map (Lexeme.shift first.span.start) = expression.lexemes) ∧
        parse ("module M \x7b val x = ".toList ++ text.toList ++ " \x7d".toList) =
          .ok (.ofConstant ⟨"x", .visible, none, text⟩) := by
  rw [parse, parseWithin_eq_ok_iff] at parsed
  rcases parsed with ⟨tree, isLexed, _, rfl⟩
  refine ⟨tree, isLexed, rfl, ?_⟩
  rcases List.mem_map.1 ((tree.body.expressions_perm source).mem_iff.1 isCaptured) with
    ⟨expression, isIn, rfl⟩
  refine ⟨expression, isIn, ?_⟩
  have isInfix : expression.lexemes <:+: tree.lexemes :=
    (ConstructTree.infix_of_mem_expressions isIn).trans (List.suffix_append _ _).isInfix
  rcases isInfix with ⟨front, back, whole⟩
  have tokenized : TokenizedFrom 0 source (front ++ expression.lexemes ++ back) :=
    whole ▸ lexFrom_eq_ok_iff.1 isLexed
  rcases tokenized.exists_excerpt expression.isExpression.nonempty with ⟨piece, isExcerpt⟩
  rw [ExpressionTree.text_eq isExcerpt, String.toList_ofList]
  refine ⟨?_, isExcerpt.exists_cut, isExcerpt.exists_lex_eq_ok,
    isExcerpt.parse_ofConstant expression.isExpression⟩
  intro isEmpty
  have noPiece : piece = [] := by simpa using isEmpty
  rcases isExcerpt.exists_lex_eq_ok with ⟨own, isRead, _⟩
  rcases isExcerpt.own_ends isRead with ⟨nonempty, _⟩
  subst noPiece
  rw [lex, lexFrom] at isRead
  exact nonempty (Except.ok.inj isRead).symm

/-- A comment inside the expression is kept, the one after it is not. -/
theorem text_with_comment_is_excerpt :
    let source := "class A \x7b val y = (\"é\" /* ) */) // é\n\x7d".toList
    let text := "(\"é\" /* ) */)"
    ∃ unit, parse source = .ok unit ∧ text ∈ unit.body.expressions ∧
      parse ("module M \x7b val x = ".toList ++ text.toList ++ " \x7d".toList) =
        .ok (.ofConstant ⟨"x", .visible, none, text⟩) := by
  intro source text
  have isLexed : lex source = .ok
      [⟨.keyword .classWord, ⟨0, 5⟩⟩, ⟨.upper "A", ⟨6, 7⟩⟩, ⟨.mark .leftBrace, ⟨8, 9⟩⟩,
        ⟨.keyword .valWord, ⟨10, 13⟩⟩, ⟨.lower "y", ⟨14, 15⟩⟩, ⟨.mark .equal, ⟨16, 17⟩⟩,
        ⟨.mark .leftParen, ⟨18, 19⟩⟩, ⟨.stringLiteral, ⟨19, 23⟩⟩, ⟨.mark .rightParen, ⟨31, 32⟩⟩,
        ⟨.mark .rightBrace, ⟨39, 40⟩⟩] := by
    decide +kernel
  have parsed : parse source = .ok ⟨NameSet.ofList [],
      { Construct.bare "A" .classKind with constants := [⟨"y", .visible, none, text⟩] }⟩ := by
    simp only [parse, parseWithin, isLexed]
    rfl
  have isCaptured : text ∈ Construct.expressions
      { Construct.bare "A" .classKind with constants := [⟨"y", .visible, none, text⟩] } := by
    decide
  rcases captured_text_is_excerpt parsed isCaptured with ⟨_, _, _, _, _, _, _, _, again⟩
  exact ⟨_, parsed, isCaptured, again⟩

end TarnBuild
