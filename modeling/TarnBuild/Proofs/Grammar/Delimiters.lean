import TarnBuild.Proofs.Grammar.CapturedText
import TarnBuild.Proofs.Grammar.WrittenType

/-!
# Delimiters and what they close

A closing delimiter closes the latest opening delimiter that is still unclosed.
The parser of expressions only counts delimiters and takes any kind of them for
any other, so this is the nesting that it keeps: within an expression, between
the braces of a construct, and in what stands there before and after each
expression.  It does not keep the kinds apart.
-/

namespace TarnBuild

open Text (Span)

/-- The kinds of delimiters. -/
inductive Delimiter where
  | brace
  | paren
  | bracket
  deriving DecidableEq, Repr

namespace Token

/-- The kind of delimiter that a token opens, if it opens one. -/
def opened? : Token → Option Delimiter
  | mark .leftBrace => some .brace
  | mark .leftParen => some .paren
  | mark .leftBracket => some .bracket
  | _ => none

/-- The kind of delimiter that a token closes, if it closes one. -/
def closed? : Token → Option Delimiter
  | mark .rightBrace => some .brace
  | mark .rightParen => some .paren
  | mark .rightBracket => some .bracket
  | _ => none

end Token

/-! ## Nesting -/

/-- The delimiters that are unclosed after a token, the latest first, given those
before it.  A closing delimiter closes the latest one, with which it must agree. -/
def unclosedAfter? (agree : Delimiter → Delimiter → Bool) (unclosed : List Delimiter)
    (token : Token) : Option (List Delimiter) :=
  match token.opened?, token.closed?, unclosed with
  | some kind, _, _ => some (kind :: unclosed)
  | none, none, _ => some unclosed
  | none, some _, [] => none
  | none, some kind, latest :: earlier => if agree latest kind then some earlier else none

/-- The delimiters that are unclosed after some lexemes, the latest first. -/
def unclosed? (agree : Delimiter → Delimiter → Bool) (unclosed : List Delimiter)
    (lexemes : List Lexeme) : Option (List Delimiter) :=
  lexemes.foldlM (fun unclosed lexeme => unclosedAfter? agree unclosed lexeme.token) unclosed

/-- Each closing delimiter closes the latest one that some lexemes have opened and
not closed, and agrees with it, and none stays unclosed. -/
def IsNested (agree : Delimiter → Delimiter → Bool) (lexemes : List Lexeme) : Prop :=
  unclosed? agree [] lexemes = some []

instance (agree : Delimiter → Delimiter → Bool) (lexemes : List Lexeme) :
    Decidable (IsNested agree lexemes) :=
  inferInstanceAs (Decidable (_ = _))

/-- A delimiter closes only one of its own kind. -/
def ofOneKind (opening closing : Delimiter) : Bool :=
  opening = closing

/-- A delimiter closes one of any kind. -/
def ofAnyKind (_ _ : Delimiter) : Bool :=
  true

variable {agree : Delimiter → Delimiter → Bool} {unclosed left below : List Delimiter}
  {lexemes others : List Lexeme} {lexeme : Lexeme} {token : Token}

/-- A token that is no delimiter opens and closes nothing. -/
theorem unclosedAfter?_of_nesting_eq_zero (isOther : token.nesting = 0) :
    unclosedAfter? agree unclosed token = some unclosed := by
  cases token with
  | mark sign => cases sign <;> first | rfl | cases isOther
  | _ => rfl

theorem unclosedAfter?_of_opened?
    {kind : Delimiter}
    (opens : token.opened? = some kind) :
    unclosedAfter? agree unclosed token = some (kind :: unclosed) := by
  unfold unclosedAfter?
  rw [opens]

/-- A closing delimiter closes the latest one if it agrees with it. -/
theorem unclosedAfter?_of_closed?
    {kind latest : Delimiter}
    (opensNot : token.opened? = none)
    (closes : token.closed? = some kind)
    (agrees : agree latest kind = true) :
    unclosedAfter? agree (latest :: unclosed) token = some unclosed := by
  unfold unclosedAfter?
  rw [opensNot, closes]
  exact if_pos agrees

theorem unclosed?_cons :
    unclosed? agree unclosed (lexeme :: lexemes) =
      (unclosedAfter? agree unclosed lexeme.token).bind (unclosed? agree · lexemes) :=
  List.foldlM_cons

theorem unclosed?_append :
    unclosed? agree unclosed (lexemes ++ others) =
      (unclosed? agree unclosed lexemes).bind (unclosed? agree · others) :=
  List.foldlM_append

/-- What was unclosed before makes no difference to a token that can do without. -/
theorem unclosedAfter?_append
    (found : unclosedAfter? agree unclosed token = some left) :
    unclosedAfter? agree (unclosed ++ below) token = some (left ++ below) := by
  unfold unclosedAfter? at found ⊢
  cases opens : token.opened? with
  | some kind =>
      rw [opens] at found
      cases found
      rfl
  | none =>
      cases closes : token.closed? with
      | none =>
          rw [opens, closes] at found
          cases found
          rfl
      | some kind =>
          cases unclosed with
          | nil =>
              rw [opens, closes] at found
              cases found
          | cons latest earlier =>
              simp only [opens, closes, List.cons_append] at found ⊢
              split at found
              · next agrees =>
                  cases found
                  rw [if_pos agrees]
              · cases found

/-- What was unclosed before stays below what is opened and closed after it. -/
theorem unclosed?_append_below
    (found : unclosed? agree unclosed lexemes = some left) :
    unclosed? agree (unclosed ++ below) lexemes = some (left ++ below) := by
  induction lexemes generalizing unclosed with
  | nil =>
      cases found
      rfl
  | cons lexeme lexemes ih =>
      rw [unclosed?_cons, Option.bind_eq_some_iff] at found ⊢
      rcases found with ⟨middle, opens, rest⟩
      exact ⟨middle ++ below, unclosedAfter?_append opens, ih rest⟩

namespace IsNested

/-- Lexemes that are nested leave unclosed what was unclosed before. -/
theorem unclosed?_eq (isNested : IsNested agree lexemes) (unclosed : List Delimiter) :
    unclosed? agree unclosed lexemes = some unclosed :=
  unclosed?_append_below isNested

@[simp]
theorem nil : IsNested agree [] := rfl

theorem append
    (first : IsNested agree lexemes) (second : IsNested agree others) :
    IsNested agree (lexemes ++ others) := by
  rw [IsNested, unclosed?_append, first]
  exact second

theorem cons
    (isOther : lexeme.token.nesting = 0) (rest : IsNested agree lexemes) :
    IsNested agree (lexeme :: lexemes) := by
  rw [IsNested, unclosed?_cons, unclosedAfter?_of_nesting_eq_zero isOther]
  exact rest

/-- A delimiter closes the one that stands before what is nested. -/
theorem enclosed
    {opening closing : Lexeme} {kind other : Delimiter}
    (opens : opening.token.opened? = some kind)
    (opensNot : closing.token.opened? = none)
    (closes : closing.token.closed? = some other)
    (agrees : agree kind other = true)
    (inside : IsNested agree lexemes) :
    IsNested agree (opening :: (lexemes ++ [closing])) := by
  rw [IsNested, unclosed?_cons, unclosedAfter?_of_opened? opens, Option.bind_some,
    unclosed?_append, inside.unclosed?_eq, Option.bind_some, unclosed?_cons,
    unclosedAfter?_of_closed? opensNot closes agrees]
  rfl

end IsNested

/-! ## Expressions -/

/-- A token keeps as many delimiters unclosed as the parser counts. -/
theorem exists_unclosedAfter?_of_openAfter
    {depth after : Nat}
    (counts : unclosed.length = depth)
    (opens : openAfter depth token = some after) :
    ∃ left, unclosedAfter? ofAnyKind unclosed token = some left ∧ left.length = after := by
  rcases openAfter_eq_some_iff.1 opens with ⟨after_eq, _⟩
  cases token with
  | mark sign =>
      cases sign with
      | leftBrace | leftParen | leftBracket =>
          simp only [Token.nesting] at after_eq
          exact ⟨_ :: unclosed, rfl, by rw [List.length_cons]; omega⟩
      | rightBrace | rightParen | rightBracket =>
          simp only [Token.nesting] at after_eq
          cases unclosed with
          | nil =>
              rw [List.length_nil] at counts
              omega
          | cons latest earlier =>
              rw [List.length_cons] at counts
              exact ⟨earlier, rfl, by omega⟩
      | less | greater | comma | colon | semicolon | equal | arrow =>
          simp only [Token.nesting] at after_eq
          exact ⟨unclosed, rfl, by omega⟩
  | _ =>
      simp only [Token.nesting] at after_eq
      exact ⟨unclosed, rfl, by omega⟩

/-- As long as the count of a parser does not fall below zero there is a
delimiter to be closed, of whatever kind, and the count is the number of those
unclosed. -/
theorem exists_unclosed?_of_continues
    {depth : Nat}
    (counts : unclosed.length = depth)
    (continues : Continues depth lexemes) :
    ∃ left, unclosed? ofAnyKind unclosed lexemes = some left ∧
      (left.length : Int) = depth + balance lexemes := by
  induction lexemes generalizing depth unclosed with
  | nil => exact ⟨unclosed, rfl, by simp [counts]⟩
  | cons lexeme lexemes ih =>
      rcases continues_cons_iff.1 continues with ⟨after, opens, inner⟩
      rcases exists_unclosedAfter?_of_openAfter counts opens with ⟨middle, found, length⟩
      rcases ih length inner with ⟨left, foundRest, left_eq⟩
      refine ⟨left, ?_, ?_⟩
      · rw [unclosed?_cons, found]
        exact foundRest
      · rw [left_eq, (openAfter_eq_some_iff.1 opens).1, balance_cons, add_assoc]

/-- The delimiters of an expression are nested, whatever their kinds. -/
theorem IsExpression.isNested
    (isExpression : IsExpression lexemes) :
    IsNested ofAnyKind lexemes := by
  rcases isExpression_iff.1 isExpression with ⟨_, continues, closed⟩
  have counts : ([] : List Delimiter).length = 0 := rfl
  rcases exists_unclosed?_of_continues counts continues with ⟨left, found, left_eq⟩
  have isEmpty : left = [] := by
    apply List.eq_nil_of_length_eq_zero
    rw [closed] at left_eq
    simpa using left_eq
  rw [IsNested, found, isEmpty]

/-! ## Types -/

section Lists

variable {Item : Type} {spell : Item → List Lexeme}

/-- A list is nested up to its closing mark, since its items are. -/
theorem CommaTree.exists_lexemes_eq
    (list : CommaTree Item) (mark : Mark)
    (areNested : ∀ item ∈ list.items, IsNested agree (spell item)) :
    ∃ inside close, list.lexemes spell mark = inside ++ [⟨.mark mark, close⟩] ∧
      IsNested agree inside := by
  induction list with
  | last item close => exact ⟨spell item, close, rfl, areNested item (by simp [items])⟩
  | more item comma others ih =>
      rcases List.forall_mem_cons.1 areNested with ⟨isNested, othersAreNested⟩
      rcases ih othersAreNested with ⟨inside, close, same, insideNested⟩
      refine ⟨spell item ++ ⟨.mark .comma, comma⟩ :: inside, close, ?_,
        isNested.append (insideNested.cons rfl)⟩
      rw [lexemes, same, List.append_assoc, List.cons_append]

/-- Angle brackets are no delimiters, so a list in them is nested with its
closing one. -/
theorem CommaTree.isNested_greater
    (list : CommaTree Item)
    (areNested : ∀ item ∈ list.items, IsNested agree (spell item)) :
    IsNested agree (list.lexemes spell .greater) := by
  rcases list.exists_lexemes_eq .greater areNested with ⟨inside, close, same, insideNested⟩
  rw [same]
  exact insideNested.append (IsNested.nil.cons rfl)

/-- A list in parentheses is nested with both of them. -/
theorem ParenTree.isNested_cons
    (left : Span) (list : ParenTree Item)
    (areNested : ∀ item ∈ list.items, IsNested ofAnyKind (spell item)) :
    IsNested ofAnyKind (⟨.mark .leftParen, left⟩ :: list.lexemes spell) := by
  cases list with
  | empty close => rfl
  | filled list =>
      rcases list.exists_lexemes_eq .rightParen areNested with
        ⟨inside, close, same, insideNested⟩
      rw [lexemes, same]
      exact insideNested.enclosed rfl rfl rfl rfl

end Lists

/-- The parentheses of a type close one another. -/
theorem TypeTree.isNested (tree : TypeTree) : IsNested ofAnyKind tree.lexemes := by
  induction tree using TypeTree.inductionOnItems with
  | primitive type place => rfl
  | bare name place => rfl
  | applied name place less arguments ih =>
      rw [lexemes, commaLexemes_eq]
      exact ((arguments.isNested_greater ih).cons rfl).cons rfl
  | group left elements ih =>
      rw [lexemes, parenLexemes_eq]
      exact elements.isNested_cons left ih
  | function left parameters arrow result ih resultIh =>
      rw [lexemes, parenLexemes_eq]
      exact (parameters.isNested_cons left ih).append (resultIh.cons rfl)

theorem TypeParametersTree.isNested (tree : TypeParametersTree) :
    IsNested ofAnyKind tree.lexemes := by
  cases tree with
  | absent => rfl
  | listed less names =>
      exact (names.isNested_greater fun _ _ => IsNested.nil.cons rfl).cons rfl

theorem AnnotationTree.isNested (tree : AnnotationTree) :
    IsNested ofAnyKind tree.lexemes := by
  cases tree with
  | absent => rfl
  | given colon type => exact type.isNested.cons rfl

theorem ParameterTree.isNested (tree : ParameterTree) : IsNested ofAnyKind tree.lexemes :=
  (tree.type.isNested.cons rfl).cons rfl

/-! ## Members and constructs -/

theorem isNested_optional (place : Option Span) (isOther : token.nesting = 0) :
    IsNested agree (optionalLexeme token place) := by
  cases place with
  | none => rfl
  | some place => exact IsNested.nil.cons isOther

/-- What a declaration has before its expression is nested. -/
theorem DeclarationTree.exists_front (tree : DeclarationTree) :
    ∃ front, tree.lexemes = front ++ tree.expression.lexemes ∧ IsNested ofAnyKind front := by
  cases tree with
  | constant word tree =>
      have typed := tree.annotation.isNested
      refine ⟨⟨.keyword .valWord, word⟩ :: ⟨.lower tree.name, tree.place⟩ ::
        (tree.annotation.lexemes ++ [⟨.mark .equal, tree.equal⟩]), ?_, ?_⟩
      · simp [lexemes, ConstantTree.lexemes, expression]
      · exact ((typed.append (IsNested.nil.cons rfl)).cons rfl).cons rfl
  | function word tree =>
      have typeParameters := tree.typeParameters.isNested
      have parameters := tree.parameters.isNested_cons tree.left fun item _ => item.isNested
      have result := tree.result.isNested
      refine ⟨⟨.keyword .functionWord, word⟩ :: ⟨.lower tree.name, tree.place⟩ ::
        (tree.typeParameters.lexemes ++ ((⟨.mark .leftParen, tree.left⟩ ::
          tree.parameters.lexemes ParameterTree.lexemes) ++ ⟨.mark .colon, tree.colon⟩ ::
            (tree.result.lexemes ++ [⟨.mark .equal, tree.equal⟩]))), ?_, ?_⟩
      · simp [lexemes, FunctionTree.lexemes, expression]
      · exact ((typeParameters.append (parameters.append
          ((result.append (IsNested.nil.cons rfl)).cons rfl))).cons rfl).cons rfl

/-- The expression of some lexemes, with nested ones before and after it. -/
def IsNestedAround (expression : ExpressionTree) (lexemes : List Lexeme) : Prop :=
  ∃ front back, lexemes = front ++ expression.lexemes ++ back ∧
    IsNested ofAnyKind front ∧ IsNested ofAnyKind expression.lexemes ∧ IsNested ofAnyKind back

namespace IsNestedAround

variable {expression : ExpressionTree}

theorem isNested (around : IsNestedAround expression lexemes) : IsNested ofAnyKind lexemes := by
  rcases around with ⟨front, back, rfl, frontNested, expressionNested, backNested⟩
  exact (frontNested.append expressionNested).append backNested

theorem appendRight
    (around : IsNestedAround expression lexemes) (second : IsNested ofAnyKind others) :
    IsNestedAround expression (lexemes ++ others) := by
  rcases around with ⟨front, back, rfl, frontNested, expressionNested, backNested⟩
  exact ⟨front, back ++ others, List.append_assoc _ _ _, frontNested, expressionNested,
    backNested.append second⟩

theorem appendLeft
    (around : IsNestedAround expression lexemes) (first : IsNested ofAnyKind others) :
    IsNestedAround expression (others ++ lexemes) := by
  rcases around with ⟨front, back, rfl, frontNested, expressionNested, backNested⟩
  exact ⟨others ++ front, back, by simp only [List.append_assoc], first.append frontNested,
    expressionNested, backNested⟩

end IsNestedAround

/-- What a member has before and after its expression is nested. -/
theorem OwnMemberTree.isNestedAround (tree : OwnMemberTree) :
    IsNestedAround tree.declaration.expression tree.lexemes := by
  rcases tree.declaration.exists_front with ⟨front, same, frontNested⟩
  have declared : IsNestedAround tree.declaration.expression tree.declaration.lexemes :=
    ⟨front, [], by rw [same, List.append_nil], frontNested,
      tree.declaration.expression.isExpression.isNested, .nil⟩
  exact (declared.appendRight (isNested_optional _ rfl)).appendLeft (isNested_optional _ rfl)

/-- The lexemes of some members but for the closing brace after them. -/
def MembersTree.inside : MembersTree → List Lexeme
  | .close _ => []
  | .own member others => member.lexemes ++ others.inside
  | .nested construct others => construct.lexemes ++ others.inside

/-- The place of the closing brace after some members. -/
def MembersTree.right : MembersTree → Span
  | .close right => right
  | .own _ others => others.right
  | .nested _ others => others.right

theorem MembersTree.lexemes_eq (tree : MembersTree) :
    tree.lexemes = tree.inside ++ [⟨.mark .rightBrace, tree.right⟩] := by
  fun_induction MembersTree.right tree with
  | case1 right => rfl
  | case2 member others ih => rw [MembersTree.lexemes, ih, inside, List.append_assoc]
  | case3 construct others ih => rw [MembersTree.lexemes, ih, inside, List.append_assoc]

/-- The lexemes of a construct before its opening brace. -/
def HeadTree.front (tree : HeadTree) : List Lexeme :=
  ⟨.keyword tree.kind.keyword, tree.word⟩ :: ⟨.upper tree.name, tree.place⟩ ::
    tree.typeParameters.lexemes

/-- The head of a construct is nested up to the opening brace. -/
theorem HeadTree.isNested_front (tree : HeadTree) : IsNested ofAnyKind tree.front :=
  (tree.typeParameters.isNested.cons rfl).cons rfl

theorem ConstructTree.lexemes_mk (head : HeadTree) (members : MembersTree) :
    (ConstructTree.mk head members).lexemes = head.front ++ ⟨.mark .leftBrace, head.left⟩ ::
      (members.inside ++ [⟨.mark .rightBrace, members.right⟩]) := by
  rw [ConstructTree.lexemes, members.lexemes_eq]
  simp [HeadTree.lexemes, HeadTree.front]

mutual

/-- The braces of a construct close one another, and so does all between them. -/
theorem ConstructTree.isNested : ∀ tree : ConstructTree, IsNested ofAnyKind tree.lexemes
  | .mk head members => by
      rw [ConstructTree.lexemes_mk]
      exact head.isNested_front.append (members.isNested_inside.enclosed rfl rfl rfl rfl)

theorem MembersTree.isNested_inside : ∀ tree : MembersTree, IsNested ofAnyKind tree.inside
  | .close _ => rfl
  | .own member others => member.isNestedAround.isNested.append others.isNested_inside
  | .nested construct others => construct.isNested.append others.isNested_inside

end

/-- Each expression of the members stands within nested delimiters. -/
theorem MembersTree.isNestedAround_of_mem_owns :
    ∀ {tree : MembersTree} {member : OwnMemberTree}, member ∈ tree.owns →
      IsNestedAround member.declaration.expression tree.inside
  | .close _, _, isMember => nomatch isMember
  | .own first others, member, isMember => by
      rw [inside]
      rcases List.mem_cons.1 isMember with rfl | isLater
      · exact member.isNestedAround.appendRight others.isNested_inside
      · exact (isNestedAround_of_mem_owns isLater).appendLeft first.isNestedAround.isNested
  | .nested construct others, member, isMember => by
      have isOther : member ∈ others.owns := isMember
      rw [inside]
      exact (isNestedAround_of_mem_owns isOther).appendLeft construct.isNested

/-! ## Units -/

/-- In a source that is read, the delimiters of each expression are nested when
their kinds are left aside, and so is what stands before and behind it between the
braces of its construct.  So the expression leaves none of its delimiters unclosed,
and the last brace of the construct closes the first one. -/
theorem expressions_isNestedAround
    {source : List Char} {unit : CompilationUnit}
    (parsed : parse source = .ok unit) :
    ∃ tree : UnitTree, lex source = .ok tree.lexemes ∧ tree.unit source = unit ∧
      unit.body.expressions.Perm (tree.body.expressions.map (ExpressionTree.text source)) ∧
      ∀ construct ∈ tree.body.within, ∃ front left inside right,
        construct.lexemes =
          front ++ ⟨.mark .leftBrace, left⟩ :: (inside ++ [⟨.mark .rightBrace, right⟩]) ∧
        IsNested ofAnyKind front ∧
        ∀ member ∈ construct.members.owns,
          IsNestedAround member.declaration.expression inside := by
  rw [parse, parseWithin_eq_ok_iff] at parsed
  rcases parsed with ⟨tree, isLexed, _, rfl⟩
  refine ⟨tree, isLexed, rfl, tree.body.expressions_perm source, ?_⟩
  rintro ⟨head, members⟩ _
  exact ⟨head.front, head.left, members.inside, members.right,
    ConstructTree.lexemes_mk head members, head.isNested_front,
    fun member isOwn => MembersTree.isNestedAround_of_mem_owns isOwn⟩

/-- Delimiters of three kinds, of which only two close one of their own kind. -/
theorem crossed_delimiters_isNestedAround :
    let source := "module M \x7b val x = \x7b[)\x7d \x7d".toList
    ∃ unit, parse source = .ok unit ∧ unit.body.expressions = ["\x7b[)\x7d"] ∧
      ∃ tree : UnitTree, lex source = .ok tree.lexemes ∧ tree.unit source = unit ∧
        ∀ construct ∈ tree.body.within, ∃ front left inside right,
          construct.lexemes =
            front ++ ⟨.mark .leftBrace, left⟩ :: (inside ++ [⟨.mark .rightBrace, right⟩]) ∧
          IsNested ofAnyKind front ∧
          ∀ member ∈ construct.members.owns,
            IsNestedAround member.declaration.expression inside := by
  intro source
  have isLexed : lex source = .ok
      [⟨.keyword .moduleWord, ⟨0, 6⟩⟩, ⟨.upper "M", ⟨7, 8⟩⟩, ⟨.mark .leftBrace, ⟨9, 10⟩⟩,
        ⟨.keyword .valWord, ⟨11, 14⟩⟩, ⟨.lower "x", ⟨15, 16⟩⟩, ⟨.mark .equal, ⟨17, 18⟩⟩,
        ⟨.mark .leftBrace, ⟨19, 20⟩⟩, ⟨.mark .leftBracket, ⟨20, 21⟩⟩,
        ⟨.mark .rightParen, ⟨21, 22⟩⟩, ⟨.mark .rightBrace, ⟨22, 23⟩⟩,
        ⟨.mark .rightBrace, ⟨24, 25⟩⟩] := by
    decide +kernel
  have parsed : parse source =
      .ok (.ofConstant ⟨"x", .visible, none, "\x7b[)\x7d"⟩) := by
    simp only [parse, parseWithin, isLexed]
    rfl
  rcases expressions_isNestedAround parsed with ⟨tree, isDerived, same, _, constructs⟩
  exact ⟨_, parsed, rfl, tree, isDerived, same, constructs⟩

/-- A brace closes a parenthesis in a source that is read. -/
theorem brace_closes_parenthesis :
    let source := "module M \x7b val x = (\x7d \x7d".toList
    ∃ unit, parse source = .ok unit ∧
      ∃ tree : UnitTree, lex source = .ok tree.lexemes ∧ tree.unit source = unit ∧
        ∃ expression ∈ tree.body.expressions, expression.text source = "(\x7d" ∧
          ¬ IsNested ofOneKind expression.lexemes := by
  intro source
  let value : ExpressionTree :=
    ⟨[⟨.mark .leftParen, ⟨19, 20⟩⟩, ⟨.mark .rightBrace, ⟨20, 21⟩⟩],
      isExpression_iff.2 ⟨by simp, continues_cons_iff.2 ⟨1, rfl,
        continues_cons_iff.2 ⟨0, rfl, continues_nil 0⟩⟩, rfl⟩⟩
  let tree : UnitTree := .ofConstant .absent ⟨17, 18⟩ value ⟨22, 23⟩
  have isLexed : lex source = .ok tree.lexemes := by
    rw [UnitTree.lexemes_ofConstant]
    decide +kernel
  have parsed : parse source = .ok (tree.unit source) :=
    parse_of_lex_eq_ofConstant isLexed (by decide)
  have isText : value.text source = "(\x7d" := by decide +kernel
  have notNested : ¬ IsNested ofOneKind value.lexemes := by decide
  exact ⟨_, parsed, tree, isLexed, rfl, value, List.mem_singleton_self value, isText, notNested⟩

end TarnBuild
