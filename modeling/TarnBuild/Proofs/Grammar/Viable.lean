import TarnBuild.Proofs.Grammar.Explore
import TarnBuild.Proofs.Grammar.Scope
import TarnBuild.Proofs.Grammar.Sound

/-!
# What is read before an error can be completed

The parser for each phrase explores the language of the trees for this phrase.
So when it fails, the lexemes that it has passed over are the front of a tree.

A type may need one more level of nesting than a failed member has come to.
For constants and functions room for one level is therefore assumed, and for
constructs it is assumed at the place of the failure.
-/

namespace TarnBuild

open Text (Span)

/-! ## Room -/

/-- There is room for a list if there is room for each of its items. -/
theorem ParseContext.hasRoom_greatest
    {context : ParseContext} {depth : Nat} {Item : Type} {height : Item → Nat}
    {items : List Item} :
    context.HasRoom depth (greatest (items.map height)) ↔
      ∀ item ∈ items, context.HasRoom depth (height item) := by
  induction items with
  | nil => simp
  | cons item items ih => simp [ih]

/-- There is room for a height, given room for one level. -/
def ParseContext.Allows (context : ParseContext) (depth height : Nat) : Prop :=
  context.HasRoom depth 1 → context.HasRoom depth height

/-! ## Expressions -/

/-- An expression that goes on after some lexemes goes on through all of them. -/
theorem Continues.append
    {depth opened : Nat} {lexemes others : List Lexeme}
    (continues : Continues depth lexemes)
    (opened_eq : (opened : Int) = depth + balance lexemes)
    (goesOn : Continues opened others) :
    Continues depth (lexemes ++ others) := by
  induction lexemes generalizing depth with
  | nil =>
      have same : opened = depth := by simpa [Int.ofNat_inj] using opened_eq
      rw [← same]
      exact goesOn
  | cons lexeme lexemes ih =>
      rcases continues_cons_iff.1 continues with ⟨after, opens, inner⟩
      refine continues_cons_iff.2 ⟨after, opens, ih inner ?_⟩
      rw [opened_eq, balance_cons, (openAfter_eq_some_iff.1 opens).1, add_assoc]

@[simp]
theorem balance_append (lexemes others : List Lexeme) :
    balance (lexemes ++ others) = balance lexemes + balance others := by
  simp [balance]

/-- As many closing parentheses as delimiters are open. -/
def closings (count : Nat) : List Lexeme :=
  List.replicate count ⟨.mark .rightParen, ⟨0, 0⟩⟩

/-- Closing parentheses go on in an expression as long as something is open. -/
theorem continues_closings (count : Nat) : Continues count (closings count) := by
  induction count with
  | zero => exact continues_nil 0
  | succ count ih => exact continues_cons_iff.2 ⟨count, by simp [openAfter], ih⟩

theorem balance_closings (count : Nat) : balance (closings count) = -count := by
  simp [balance, closings, Token.nesting]

/-- An expression in which delimiters are open is completed by closing them. -/
theorem isExpression_append_closings
    {opened : Nat} {lexemes : List Lexeme}
    (continues : Continues 0 lexemes)
    (opened_eq : (opened : Int) = balance lexemes)
    (notClosed : opened ≠ 0) :
    IsExpression (lexemes ++ closings opened) := by
  refine isExpression_iff.2 ⟨?_, ?_, ?_⟩
  · simp [closings, notClosed]
  · exact continues.append (by simpa using opened_eq) (continues_closings opened)
  · rw [balance_append, balance_closings, opened_eq, Int.add_right_neg]

/-- The expressions as they are written. -/
def expressions : Language Lexeme :=
  phrases ExpressionTree.lexemes fun _ => True

theorem completable_expressions : Completable expressions [] := by
  have isWritable : Token.integerLiteral.IsWritable :=
    ⟨['0'], Pattern.cons_mem_integer_iff.2 ⟨rfl, by simp⟩⟩
  refine ⟨[⟨.integerLiteral, ⟨0, 0⟩⟩], List.forall_mem_singleton.2 isWritable, ?_⟩
  exact ⟨⟨_, isExpression_singleton _⟩, trivial, rfl⟩

section Grammar

variable {context : ParseContext} {given : List Lexeme → Prop} {depth : Nat}

/-- An expression fails only at its first lexeme or at the end of the source,
and there the open delimiters can be closed. -/
theorem explores_expression :
    Explores context Always depth Parser.expression expressions := by
  intro before _
  cases ends : Parser.expression context before with
  | done value after =>
      rcases Parser.exists_tree_of_expression ends with ⟨tree, _, passes⟩
      exact follows_of_passes ⟨tree, trivial, rfl⟩ passes
  | failed error after =>
      rcases continues_of_expressionRun 0 before.rest with ⟨split, continues, opened_eq⟩
      unfold Parser.expression at ends
      dsimp only at ends
      split at ends
      · next notClosed =>
          cases ends
          refine .failed _ _ _ split fun _ => ?_
          have areWritable : ∀ lexeme ∈ closings (expressionRun 0 before.rest).depth,
              lexeme.token.IsWritable := by
            intro lexeme isIn
            rw [List.eq_of_mem_replicate isIn]
            exact ⟨_, rfl⟩
          have isExpression :=
            isExpression_append_closings continues (by simpa using opened_eq) notClosed
          exact ⟨_, areWritable, ⟨_, isExpression⟩, trivial, rfl⟩
      · split at ends
        · cases ends
        · next isEmpty =>
            have nothing : (expressionRun 0 before.rest).taken = [] := by
              cases taken : (expressionRun 0 before.rest).taken with
              | nil => rfl
              | cons => simp [taken, coveredText?, List.getLast?_cons] at isEmpty
            cases ends
            rw [nothing] at split
            exact .failed _ _ [] split fun _ => completable_expressions

/-! ## Types -/

/-- The types as they are written that have room at a depth. -/
def types (context : ParseContext) (depth : Nat) : Language Lexeme :=
  phrases TypeTree.lexemes fun tree => context.HasRoom depth tree.height

/-- A primitive type can be written where there is room for one level. -/
theorem completable_types (hasRoom : context.HasRoom depth 1) :
    Completable (types context depth) [] := by
  have isInt : Completable (oneOf (.primitive .int)) [] := .oneOf ⟨_, rfl⟩
  refine isInt.mono ?_
  rintro _ ⟨place, rfl⟩
  exact ⟨.primitive .int place, hasRoom, rfl⟩

section Inside

variable (notFull : ¬ context.nestingLimit.any (· ≤ depth))
include notFull

theorem types_of_primitive (type : Primitive) :
    oneOf (.primitive type) ≤ types context depth := by
  rintro _ ⟨place, rfl⟩
  exact ⟨.primitive type place,
    ParseContext.hasRoom_succ.2 ⟨notFull, ParseContext.hasRoom_zero⟩, rfl⟩

/-- The arguments of a type are one level inside of it. -/
theorem types_of_named (name : String) :
    oneOf (.upper name) *
        (oneOf (.mark .less) * commaLists TypeTree.lexemes
          (fun tree => context.HasRoom (depth + 1) tree.height) .greater + 1) ≤
      types context depth := by
  rintro _ ⟨_, ⟨place, rfl⟩, _, isApplied | rfl, rfl⟩
  · rcases isApplied with ⟨_, ⟨less, rfl⟩, _, ⟨list, areFit, rfl⟩, rfl⟩
    have hasRoom := ParseContext.hasRoom_succ.2 ⟨notFull, ParseContext.hasRoom_greatest.2 areFit⟩
    refine ⟨.applied name place less list, ?_, by simp [TypeTree.lexemes]⟩
    simpa [TypeTree.height] using hasRoom
  · exact ⟨.bare name place,
      ParseContext.hasRoom_succ.2 ⟨notFull, ParseContext.hasRoom_zero⟩, rfl⟩

/-- The types between parentheses and after an arrow are one level inside, too. -/
theorem types_of_parenthesized :
    oneOf (.mark .leftParen) *
        (parenLists TypeTree.lexemes (fun tree => context.HasRoom (depth + 1) tree.height) *
          (oneOf (.mark .arrow) * types context (depth + 1) + 1)) ≤
      types context depth := by
  rintro _ ⟨_, ⟨left, rfl⟩, _, ⟨_, ⟨list, areFit, rfl⟩, _, isFunction | rfl, rfl⟩, rfl⟩
  · rcases isFunction with ⟨_, ⟨arrow, rfl⟩, _, ⟨tree, isFit, rfl⟩, rfl⟩
    have hasRoom := ParseContext.hasRoom_succ.2 ⟨notFull, ParseContext.hasRoom_max.2
      ⟨ParseContext.hasRoom_greatest.2 areFit, isFit⟩⟩
    refine ⟨.function left list arrow tree, ?_, by simp [TypeTree.lexemes]⟩
    simpa [TypeTree.height] using hasRoom
  · have hasRoom := ParseContext.hasRoom_succ.2 ⟨notFull, ParseContext.hasRoom_greatest.2 areFit⟩
    refine ⟨.group left list, ?_, by simp [TypeTree.lexemes]⟩
    simpa [TypeTree.height] using hasRoom

end Inside

/-- A type that fails is the front of a type, by induction on the bound and by
cases on the first token. -/
theorem explores_typeUpTo (bound : Nat) :
    Explores context Always depth (Parser.typeUpTo bound) (types context depth) := by
  induction bound generalizing depth with
  | zero =>
      refine explores_nested fun notFull => explores_unexpected (completable_types ?_)
      exact ParseContext.hasRoom_succ.2 ⟨notFull, ParseContext.hasRoom_zero⟩
  | succ bound ih =>
      refine explores_nested fun notFull => explores_peek_bind ?_
      have inner : Explores context Always (depth + 1) (Parser.typeUpTo bound)
          (phrases TypeTree.lexemes fun tree => context.HasRoom (depth + 1) tree.height) := ih
      rintro before depth_eq
      generalize isNext : before.token? = found
      split
      · next type =>
          refine Follows.mono ?_ (fun _ => id)
            (follows_advance_bind depth_eq isNext explores_pure fun _ _ _ => id)
          rw [mul_one]
          exact types_of_primitive notFull type
      · next name =>
          have arguments := (explores_commaList inner .greater .commaOrAngle).map
            (TypeExpr.named name)
          exact Follows.mono (types_of_named notFull name) (fun _ => id)
            (follows_advance_bind depth_eq isNext
              (explores_eat_bind_ite _ arguments explores_pure) fun _ _ _ => id)
      · have group (elements : List TypeExpr) : Explores context Always (depth + 1)
            (pure (TypeExpr.group elements)) 1 := explores_pure
        have result (elements : List TypeExpr) := explores_eat_bind_ite (.mark .arrow)
          (inner.map (TypeExpr.function elements)) (group elements)
        exact Follows.mono (types_of_parenthesized notFull) (fun _ => id)
          (follows_advance_bind depth_eq isNext
            ((explores_parenList inner).bind result .optional)
            fun _ _ _ => id)
      · refine explores_unexpected (completable_types ?_) before depth_eq
        exact ParseContext.hasRoom_succ.2 ⟨notFull, ParseContext.hasRoom_zero⟩

theorem explores_type :
    Explores context Always depth Parser.type (types context depth) :=
  explores_withRemaining explores_typeUpTo

/-! ## Constants and functions -/

/-- The types as they are written that have room where there is room for one
level. -/
def allowedTypes (context : ParseContext) (depth : Nat) : Language Lexeme :=
  phrases TypeTree.lexemes fun tree => context.Allows depth tree.height

theorem completable_allowedTypes : Completable (allowedTypes context depth) [] := by
  have isInt : Completable (oneOf (.primitive .int)) [] := .oneOf ⟨_, rfl⟩
  refine isInt.mono ?_
  rintro _ ⟨place, rfl⟩
  exact ⟨.primitive .int place, id, rfl⟩

theorem explores_allowedType :
    Explores context Always depth Parser.type (allowedTypes context depth) :=
  explores_type.mono fun _ ⟨tree, hasRoom, same⟩ => ⟨tree, fun _ => hasRoom, same⟩

theorem completable_mark (mark : Mark) : Completable (oneOf (.mark mark)) [] :=
  .oneOf ⟨mark.text, rfl⟩

/-- The optional lists of type parameters as they are written. -/
def typeParameterLists : Language Lexeme :=
  phrases TypeParametersTree.lexemes fun _ => True

theorem completable_typeParameterLists : Completable typeParameterLists [] :=
  .of_mem ⟨.absent, trivial, rfl⟩

/-- Type parameters that fail have begun with their bracket. -/
theorem explores_typeParameters :
    Explores context Always depth Parser.typeParameters typeParameterLists := by
  have name : Explores context Always depth (Parser.upperName .typeParameter)
      (phrases TypeParameterTree.lexemes fun _ => True) :=
    (explores_upperName _).mono fun _ ⟨name, place, same⟩ => ⟨⟨name, place⟩, trivial, same.symm⟩
  refine (explores_eat_bind_ite _ (explores_commaList name _ _) explores_pure).mono ?_
  rintro _ (⟨_, ⟨less, rfl⟩, _, ⟨names, _, rfl⟩, rfl⟩ | rfl)
  · exact ⟨.listed less names, trivial, rfl⟩
  · exact ⟨.absent, trivial, rfl⟩

/-- The optional annotations as they are written. -/
def annotations (context : ParseContext) (depth : Nat) : Language Lexeme :=
  phrases AnnotationTree.lexemes fun tree => context.Allows depth tree.height

theorem completable_annotations : Completable (annotations context depth) [] :=
  .of_mem ⟨.absent, fun _ => ParseContext.hasRoom_zero, rfl⟩

theorem explores_annotation :
    Explores context Always depth Parser.annotation (annotations context depth) := by
  refine (explores_eat_bind_ite _ (explores_allowedType.map some) explores_pure).mono ?_
  rintro _ (⟨_, ⟨colon, rfl⟩, _, ⟨type, isAllowed, rfl⟩, rfl⟩ | rfl)
  · exact ⟨.given colon type, isAllowed, rfl⟩
  · exact ⟨.absent, fun _ => ParseContext.hasRoom_zero, rfl⟩

/-- The constants after their introducing words. -/
def constants (context : ParseContext) (depth : Nat) : Language Lexeme :=
  phrases ConstantTree.lexemes fun tree => context.Allows depth tree.annotation.height

/-- The parts of a constant, one after the other, are a constant. -/
theorem constants_of_parts :
    lowerNames * (annotations context depth * (oneOf (.mark .equal) * expressions)) ≤
      constants context depth := by
  rintro _ ⟨_, ⟨name, place, rfl⟩, _, ⟨_, ⟨typing, isAllowed, rfl⟩, _,
    ⟨_, ⟨equal, rfl⟩, _, ⟨value, _, rfl⟩, rfl⟩, rfl⟩, rfl⟩
  exact ⟨⟨name, place, typing, equal, value⟩, isAllowed, rfl⟩

theorem completable_constants : Completable (constants context depth) [] :=
  (completable_lowerNames.mul (completable_annotations.mul
    ((completable_mark .equal).mul completable_expressions))).mono constants_of_parts

theorem explores_constant (visibility : Visibility) :
    Explores context Always depth (Parser.constant visibility) (constants context depth) := by
  have value : Completable (oneOf (.mark .equal) * expressions) [] :=
    (completable_mark .equal).mul completable_expressions
  refine Explores.mono ?_ constants_of_parts
  refine (explores_lowerName _).bind (fun name => ?_) (completable_annotations.mul value)
  refine explores_annotation.bind (fun annotation => ?_) value
  refine (explores_expect _ _).bind (fun _ => ?_) completable_expressions
  exact explores_expression.map _

/-- The parameters as they are written. -/
def parameters (context : ParseContext) (depth : Nat) : Language Lexeme :=
  phrases ParameterTree.lexemes fun tree => context.Allows depth tree.height

theorem explores_parameter :
    Explores context Always depth Parser.parameter (parameters context depth) := by
  have parts : lowerNames * (oneOf (.mark .colon) * allowedTypes context depth) ≤
      parameters context depth := by
    rintro _ ⟨_, ⟨name, place, rfl⟩, _, ⟨_, ⟨colon, rfl⟩, _, ⟨type, isAllowed, rfl⟩, rfl⟩, rfl⟩
    exact ⟨⟨name, place, colon, type⟩, isAllowed, rfl⟩
  refine Explores.mono ?_ parts
  refine (explores_lowerName _).bind (fun name => ?_)
    ((completable_mark .colon).mul completable_allowedTypes)
  refine (explores_expect _ _).bind (fun _ => ?_) completable_allowedTypes
  exact explores_allowedType.map _

/-- The parameters of functions after the opening parenthesis. -/
def parameterLists (context : ParseContext) (depth : Nat) : Language Lexeme :=
  parenLists ParameterTree.lexemes fun tree => context.Allows depth tree.height

/-- The functions after their introducing words. -/
def functions (context : ParseContext) (depth : Nat) : Language Lexeme :=
  phrases FunctionTree.lexemes fun tree => context.Allows depth tree.height

/-- A function that fails is the front of a function, its parts being explored
one after the other. -/
theorem explores_function (visibility : Visibility) :
    Explores context Always depth (Parser.function visibility) (functions context depth) := by
  have parts : lowerNames * (typeParameterLists * (oneOf (.mark .leftParen) *
      (parameterLists context depth * (oneOf (.mark .colon) * (allowedTypes context depth *
        (oneOf (.mark .equal) * expressions)))))) ≤ functions context depth := by
    rintro _ ⟨_, ⟨name, place, rfl⟩, _, ⟨_, ⟨typeParameters, _, rfl⟩, _, ⟨_, ⟨left, rfl⟩, _,
      ⟨_, ⟨parameters, areAllowed, rfl⟩, _, ⟨_, ⟨colon, rfl⟩, _, ⟨_, ⟨result, isAllowed, rfl⟩, _,
        ⟨_, ⟨equal, rfl⟩, _, ⟨body, _, rfl⟩, rfl⟩, rfl⟩, rfl⟩, rfl⟩, rfl⟩, rfl⟩, rfl⟩
    refine ⟨⟨name, place, typeParameters, left, parameters, colon, result, equal, body⟩, ?_, rfl⟩
    intro hasRoom
    exact ParseContext.hasRoom_max.2 ⟨ParseContext.hasRoom_greatest.2 fun tree isIn =>
      areAllowed tree isIn hasRoom, isAllowed hasRoom⟩
  -- What completes the rest of the function after each of its parts.
  have body : Completable (oneOf (.mark .equal) * expressions) [] :=
    (completable_mark .equal).mul completable_expressions
  have result : Completable (allowedTypes context depth * _) [] :=
    completable_allowedTypes.mul body
  have colon := (completable_mark .colon).mul result
  have parameters : Completable (parameterLists context depth * _) [] :=
    completable_parenLists.mul colon
  have left := (completable_mark .leftParen).mul parameters
  refine Explores.mono ?_ parts
  refine (explores_lowerName _).bind (fun name => ?_) (completable_typeParameterLists.mul left)
  refine explores_typeParameters.bind (fun typeParameters => ?_) left
  refine (explores_expect _ _).bind (fun _ => ?_) parameters
  refine (explores_parenList explores_parameter).bind (fun parameters => ?_) colon
  refine (explores_expect _ _).bind (fun _ => ?_) result
  refine explores_allowedType.bind (fun result => ?_) body
  refine (explores_expect _ _).bind (fun _ => ?_) completable_expressions
  exact explores_expression.map _

/-! ## Members -/

theorem explores_discard_eat (token : Token) :
    Explores context Always depth (discard (Parser.eat token) : Parser Unit)
      (oneOf token + 1) := by
  rw [Parser.discard_run]
  exact (explores_eat token).map _

theorem mem_optional {token : Token} {word : List Lexeme} (isWord : word ∈ oneOf token + 1) :
    ∃ place, optionalLexeme token place = word := by
  rcases isWord with ⟨place, rfl⟩ | rfl
  · exact ⟨some place, rfl⟩
  · exact ⟨none, rfl⟩

/-- The constants and functions with their introducing words and semicolons. -/
def declarations (context : ParseContext) (depth : Nat) : Language Lexeme :=
  oneOf (.keyword .valWord) * (constants context depth * (oneOf (.mark .semicolon) + 1)) +
    oneOf (.keyword .functionWord) * (functions context depth * (oneOf (.mark .semicolon) + 1))

theorem completable_declarations : Completable (declarations context depth) [] := by
  have isWord : Completable (oneOf (.keyword .valWord)) [] := .oneOf ⟨_, rfl⟩
  exact (isWord.mul (completable_constants.mul .optional)).mono fun _ => .inl

theorem explores_ownMember :
    Explores context Always depth Parser.ownMember
      (phrases OwnMemberTree.lexemes fun tree => context.Allows depth tree.height) := by
  have parts : (oneOf (.keyword .privateWord) + 1) * declarations context depth ≤
      phrases OwnMemberTree.lexemes fun tree => context.Allows depth tree.height := by
    rintro _ ⟨_, isPrivate, _, isConstant | isFunction, rfl⟩
    · rcases mem_optional isPrivate with ⟨privateWord, rfl⟩
      rcases isConstant with ⟨_, ⟨word, rfl⟩, _, ⟨_, ⟨tree, isAllowed, rfl⟩, _, isLast, rfl⟩, rfl⟩
      rcases mem_optional isLast with ⟨semicolon, rfl⟩
      exact ⟨⟨privateWord, .constant word tree, semicolon⟩, isAllowed, rfl⟩
    · rcases mem_optional isPrivate with ⟨privateWord, rfl⟩
      rcases isFunction with ⟨_, ⟨word, rfl⟩, _, ⟨_, ⟨tree, isAllowed, rfl⟩, _, isLast, rfl⟩, rfl⟩
      rcases mem_optional isLast with ⟨semicolon, rfl⟩
      exact ⟨⟨privateWord, .function word tree, semicolon⟩, isAllowed, rfl⟩
  refine Explores.mono ?_ parts
  refine (explores_eat _).bind (fun isPrivate => ?_) completable_declarations
  refine explores_peek_bind fun before depth_eq => ?_
  generalize isNext : before.token? = found
  split
  · refine Follows.mono (fun _ => .inl) (fun _ => id)
      (follows_advance_bind depth_eq isNext ?_ fun _ _ _ => id)
    refine (explores_constant _).bind (fun constant => ?_) .optional
    exact (explores_discard_eat _).map _
  · refine Follows.mono (fun _ => .inr) (fun _ => id)
      (follows_advance_bind depth_eq isNext ?_ fun _ _ _ => id)
    refine (explores_function _).bind (fun function => ?_) .optional
    exact (explores_discard_eat _).map _
  · exact explores_unexpected completable_declarations before depth_eq

/-- From between two members some lexemes lead to a place with room for one
more level. -/
def ParseContext.RoomAfter (context : ParseContext) (depth : Nat) (read : List Lexeme) : Prop :=
  ∃ scope, Scope.Rests depth scope ∧ context.HasRoom (scope.after read).constructs 1

/-- The room that is found after a front and more lexemes is found after those
lexemes, if the front leads back between two members. -/
theorem ParseContext.RoomAfter.of_append {front read : List Lexeme}
    (roomAfter : context.RoomAfter depth (front ++ read))
    (rests_after : ∀ {scope}, Scope.Rests depth scope → Scope.Rests depth (scope.after front)) :
    context.RoomAfter depth read := by
  rcases roomAfter with ⟨scope, rests, hasRoom⟩
  rw [Scope.after_append] at hasRoom
  exact ⟨_, rests_after rests, hasRoom⟩

/-- A member that fails leaves its constructs open, so there is room for a
type in it if there is room at the place of the failure. -/
theorem explores_ownMember_when :
    Explores context (context.RoomAfter depth) depth Parser.ownMember
      (phrases OwnMemberTree.lexemes fun tree => context.HasRoom depth tree.height) := by
  rintro before rfl
  have follows : Follows Always _ before (Parser.ownMember context before) :=
    explores_ownMember before rfl
  cases ends : Parser.ownMember context before with
  | done value after =>
      rcases Parser.sound_ownMember context _ _ _ ends with ⟨tree, _, passes⟩
      exact follows_of_passes ⟨tree, passes.room, rfl⟩ passes
  | failed error after =>
      rw [ends] at follows
      cases follows with
      | failed _ _ read rest_eq completable =>
          refine .failed error after read rest_eq ?_
          rintro ⟨scope, rests, hasRoom⟩
          rcases completable trivial with ⟨added, areWritable, tree, isAllowed, same⟩
          rw [tree.keeps rests read ⟨added, same.symm⟩] at hasRoom
          exact ⟨added, areWritable, tree, isAllowed hasRoom, same⟩
      | tooDeep place => exact .tooDeep place after

/-! ## Constructs -/

/-- The constructs as they are written that have room at a depth. -/
def constructs (context : ParseContext) (depth : Nat) : Language Lexeme :=
  phrases ConstructTree.lexemes fun tree => context.HasRoom depth tree.height

/-- The members with the closing brace after them that have room at a depth. -/
def memberLists (context : ParseContext) (depth : Nat) : Language Lexeme :=
  phrases MembersTree.lexemes fun tree => context.HasRoom depth tree.height

theorem completable_memberLists : Completable (memberLists context depth) [] := by
  refine (completable_mark .rightBrace).mono ?_
  rintro _ ⟨right, rfl⟩
  exact ⟨.close right, ParseContext.hasRoom_zero, rfl⟩

theorem memberLists_of_own :
    (phrases OwnMemberTree.lexemes fun tree => context.HasRoom depth tree.height) *
      memberLists context depth ≤ memberLists context depth := by
  rintro _ ⟨_, ⟨member, isFit, rfl⟩, _, ⟨others, areFit, rfl⟩, rfl⟩
  exact ⟨.own member others, ParseContext.hasRoom_max.2 ⟨isFit, areFit⟩, rfl⟩

theorem memberLists_of_nested :
    constructs context depth * memberLists context depth ≤ memberLists context depth := by
  rintro _ ⟨_, ⟨construct, isFit, rfl⟩, _, ⟨others, areFit, rfl⟩, rfl⟩
  exact ⟨.nested construct others, ParseContext.hasRoom_max.2 ⟨isFit, areFit⟩, rfl⟩

/-- Members that fail are the front of members.  Where a construct among them
fails, there must be room for it. -/
theorem explores_membersUpTo {inner : Parser Construct}
    (innerExplores : Explores context (context.RoomAfter depth) depth inner
      (constructs context depth))
    (bound : Nat) :
    Explores context (context.RoomAfter depth) depth (Parser.membersUpTo inner bound)
      (memberLists context depth) := by
  induction bound with
  | zero => exact explores_unexpected completable_memberLists
  | succ bound ih =>
      have nested : Explores context (context.RoomAfter depth) depth
          (do return .nested (← inner) :: (← Parser.membersUpTo inner bound))
          (memberLists context depth) := by
        refine Explores.mono ?_ memberLists_of_nested
        refine innerExplores.bind_when _ (fun first => ih.map _) ?_ completable_memberLists
        rintro _ ⟨tree, _, rfl⟩ read roomAfter
        exact roomAfter.of_append tree.rests_after
      have own : Explores context (context.RoomAfter depth) depth
          (do return (← Parser.ownMember) :: (← Parser.membersUpTo inner bound))
          (memberLists context depth) := by
        refine Explores.mono ?_ memberLists_of_own
        refine explores_ownMember_when.bind_when _ (fun first => ih.map _) ?_
          completable_memberLists
        rintro _ ⟨tree, _, rfl⟩ read roomAfter
        exact roomAfter.of_append tree.rests_after
      refine explores_peek_bind fun before depth_eq => ?_
      generalize isNext : before.token? = found
      split
      · refine Follows.mono ?_ (fun _ _ => trivial)
          (follows_advance_bind depth_eq isNext explores_pure fun _ _ _ => id)
        rw [mul_one]
        rintro _ ⟨right, rfl⟩
        exact ⟨.close right, ParseContext.hasRoom_zero, rfl⟩
      · exact nested before depth_eq
      · exact nested before depth_eq
      · exact own before depth_eq
      · exact explores_unexpected completable_memberLists before depth_eq

/-- The words that introduce a construct. -/
def constructWords : Language Lexeme :=
  {word | ∃ kind place, word = [⟨.keyword (ConstructKind.keyword kind), place⟩]}

theorem completable_constructWords : Completable constructWords [] :=
  ⟨[⟨.keyword .moduleWord, ⟨0, 0⟩⟩], List.forall_mem_singleton.2 ⟨_, rfl⟩, .moduleKind, _, rfl⟩

theorem explores_constructKind :
    Explores context given depth Parser.constructKind constructWords := by
  refine explores_peek_bind fun before depth_eq => ?_
  generalize isNext : before.token? = found
  split
  · refine Follows.mono ?_ (fun _ _ => trivial)
      (follows_advance_bind depth_eq isNext explores_pure fun _ _ _ => id)
    rw [mul_one]
    exact fun word ⟨place, same⟩ => ⟨.moduleKind, place, same⟩
  · refine Follows.mono ?_ (fun _ _ => trivial)
      (follows_advance_bind depth_eq isNext explores_pure fun _ _ _ => id)
    rw [mul_one]
    exact fun word ⟨place, same⟩ => ⟨.classKind, place, same⟩
  · exact explores_unexpected completable_constructWords before depth_eq

/-- From within a head some lexemes lead to a place with room for one more
level. -/
def ParseContext.RoomInHead (context : ParseContext) (depth : Nat) (read : List Lexeme) : Prop :=
  context.HasRoom ((Scope.mk depth none).after read).constructs 1

/-- Lexemes that open and close no construct leave the room in a head as it is. -/
theorem ParseContext.RoomInHead.of_append {front read : List Lexeme}
    (hasRoom : context.RoomInHead depth (front ++ read)) (plain : Plain front) :
    context.RoomInHead depth read := by
  rwa [RoomInHead, Scope.after_append, plain.after_eq] at hasRoom

/-- A construct without members can be written where there is room for one level. -/
theorem completable_construct (hasRoom : context.HasRoom depth 1) :
    Completable (constructs context depth) [] := by
  have whole : Completable (constructWords * (upperNames * (oneOf (.mark .leftBrace) *
      oneOf (.mark .rightBrace)))) [] :=
    completable_constructWords.mul (completable_upperNames.mul
      ((completable_mark .leftBrace).mul (completable_mark .rightBrace)))
  refine whole.mono ?_
  rintro _ ⟨_, ⟨kind, word, rfl⟩, _, ⟨_, ⟨name, place, rfl⟩, _,
    ⟨_, ⟨left, rfl⟩, _, ⟨right, rfl⟩, rfl⟩, rfl⟩, rfl⟩
  exact ⟨.mk ⟨kind, word, name, place, .absent, left⟩ (.close right), hasRoom, rfl⟩

/-- The members of a construct are one level inside of it. -/
theorem constructs_of_head (notFull : ¬ context.nestingLimit.any (· ≤ depth)) :
    constructWords * (upperNames * (typeParameterLists * (oneOf (.mark .leftBrace) *
      memberLists context (depth + 1)))) ≤ constructs context depth := by
  rintro _ ⟨_, ⟨kind, word, rfl⟩, _, ⟨_, ⟨name, place, rfl⟩, _, ⟨_, ⟨typeParameters, _, rfl⟩, _,
    ⟨_, ⟨left, rfl⟩, _, ⟨members, areFit, rfl⟩, rfl⟩, rfl⟩, rfl⟩, rfl⟩
  refine ⟨.mk ⟨kind, word, name, place, typeParameters, left⟩ members, ?_, ?_⟩
  · exact ParseContext.hasRoom_succ.2 ⟨notFull, areFit⟩
  · simp [ConstructTree.lexemes, HeadTree.lexemes]

/-- A construct that fails is the front of a construct, if there is room for one
level more where it fails. -/
theorem explores_constructUpTo (bound : Nat) :
    Explores context (context.RoomAfter depth) depth (Parser.constructUpTo bound)
      (constructs context depth) := by
  induction bound generalizing depth with
  | zero =>
      refine explores_nested fun notFull => explores_unexpected (completable_construct ?_)
      exact ParseContext.hasRoom_succ.2 ⟨notFull, ParseContext.hasRoom_zero⟩
  | succ bound ih =>
      refine explores_nested fun notFull => ?_
      have members : Completable (oneOf (.mark .leftBrace) * memberLists context (depth + 1)) [] :=
        (completable_mark .leftBrace).mul completable_memberLists
      have typeParameters := completable_typeParameterLists.mul members
      refine Explores.mono ?_ (constructs_of_head notFull)
      refine explores_constructKind.bind_when (context.RoomInHead depth) (fun kind => ?_) ?_
        (completable_upperNames.mul typeParameters)
      · refine (explores_upperName _).when.bind_when (context.RoomInHead depth) (fun name => ?_) ?_
          typeParameters
        · refine explores_typeParameters.when.bind_when (context.RoomInHead depth)
            (fun typeParameters => ?_) ?_ members
          · refine (explores_expect _ _).when.bind_when (context.RoomAfter (depth + 1))
              (fun _ => ?_) ?_ completable_memberLists
            · exact (explores_withRemaining (explores_membersUpTo ih)).map _
            · rintro _ ⟨left, rfl⟩ read hasRoom
              exact ⟨_, .outside, hasRoom⟩
          · rintro _ ⟨tree, _, rfl⟩ read hasRoom
            exact hasRoom.of_append tree.plain
        · rintro _ ⟨name, place, rfl⟩ read hasRoom
          exact hasRoom.of_append (by simp)
      · rintro _ ⟨kind, place, rfl⟩ read ⟨scope, rests, hasRoom⟩
        have notImport : kind.keyword ≠ .importWord := by cases kind <;> decide
        rwa [List.singleton_append, Scope.after_cons, rests.next_keyword notImport] at hasRoom

/-! ## Units -/

/-- The imports at the start of a unit as they are written. -/
def importLists : Language Lexeme :=
  phrases (fun trees : List ImportTree => trees.flatMap ImportTree.lexemes) fun _ => True

theorem explores_imports :
    Explores context Always depth Parser.imports importLists := by
  have item : Explores context Always depth Parser.importedName
      (upperNames * (oneOf (.mark .semicolon) + 1)) :=
    (explores_upperName _).bind (fun name => (explores_discard_eat _).map _) .optional
  have isPhrase : oneOf (.keyword .importWord) * (upperNames * (oneOf (.mark .semicolon) + 1)) ≤
      phrases ImportTree.lexemes fun _ => True := by
    rintro _ ⟨_, ⟨word, rfl⟩, _, ⟨_, ⟨name, place, rfl⟩, _, isLast, rfl⟩, rfl⟩
    rcases mem_optional isLast with ⟨semicolon, rfl⟩
    exact ⟨⟨word, name, place, semicolon⟩, trivial, rfl⟩
  refine (explores_withRemaining (explores_repeatAfter item isPhrase)).mono ?_
  exact fun _ ⟨trees, _, same⟩ => ⟨trees, trivial, same⟩

/-- The units as they are written that have room at a depth. -/
def units (context : ParseContext) (depth : Nat) : Language Lexeme :=
  phrases UnitTree.lexemes fun tree => context.HasRoom depth tree.height

/-- Before an error in a unit stands the front of another unit, if there is room
for one more level at the place of the error. -/
theorem explores_unit (hasRoom : context.HasRoom depth 1) :
    Explores context (context.RoomInHead depth) depth Parser.unit (units context depth) := by
  have parts : importLists * (constructs context depth * 1) ≤ units context depth := by
    rw [mul_one]
    rintro _ ⟨_, ⟨imports, _, rfl⟩, _, ⟨body, isFit, rfl⟩, rfl⟩
    exact ⟨⟨imports, body⟩, isFit, rfl⟩
  have body := (completable_construct hasRoom).mul .one
  refine Explores.mono ?_ parts
  refine explores_imports.when.bind_when (context.RoomAfter depth) (fun imports => ?_) ?_ body
  · refine (explores_withRemaining explores_constructUpTo).bind_when Always (fun body => ?_)
      (fun _ _ _ _ => trivial) .one
    refine explores_peek_bind fun before depth_eq => ?_
    cases before.token? with
    | some token => exact .failed _ before [] rfl fun _ => .one
    | none => exact explores_pure before depth_eq
  · rintro _ ⟨trees, _, rfl⟩ read hasRoom
    have plain : Plain (trees.flatMap ImportTree.lexemes) := by
      intro lexeme isIn
      rcases List.mem_flatMap.1 isIn with ⟨tree, _, isInTree⟩
      exact tree.plain lexeme isInTree
    exact ⟨_, .outside, hasRoom.of_append plain⟩

end Grammar

end TarnBuild
