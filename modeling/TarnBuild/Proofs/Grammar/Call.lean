import TarnBuild.Proofs.Grammar.Ending
import TarnBuild.Proofs.Grammar.Parse

/-!
# Calls

Reading a unit is made of calls, each of which starts at some lexeme.  Every call comes
to an end, with a value or with an error, and stops neither before its start nor beyond
the last lexeme.  Most of them find a value only behind a lexeme.
-/

namespace TarnBuild

/-- The calls that reading a unit is made of. -/
inductive Call : Type → Type where
  | advance : Call Unit
  | eat (token : Token) : Call Bool
  | openLevel : Call Unit
  | expect (mark : Mark) (expectation : Expectation) : Call Unit
  | upperName (expectation : Expectation) : Call String
  | lowerName (expectation : Expectation) : Call String
  | typeParameters : Call (List String)
  | type : Call TypeExpr
  | typeList (close : Mark) (expectation : Expectation) : Call (List TypeExpr)
  | expression : Call String
  | constant (visibility : Visibility) : Call Constant
  | parameters : Call (List Parameter)
  | function (visibility : Visibility) : Call Function
  | member : Call Member
  | construct : Call Construct
  | members : Call (List Member)
  | imports : Call (List String)
  | unit : Call CompilationUnit

namespace Call

variable {Value : Type}

/-- The parser that is called. -/
def parser : Call Value → Parser Value
  | advance => Parser.advance
  | eat token => Parser.eat token
  | openLevel => Parser.openLevel
  | expect mark expectation => Parser.expect mark expectation
  | upperName expectation => Parser.upperName expectation
  | lowerName expectation => Parser.lowerName expectation
  | typeParameters => Parser.typeParameters
  | type => Parser.type
  | typeList close expectation => Parser.commaList Parser.type close expectation
  | expression => Parser.expression
  | constant visibility => Parser.constant visibility
  | parameters => Parser.parenList Parser.parameter
  | function visibility => Parser.function visibility
  | member => Parser.ownMember
  | construct => Parser.construct
  | members => Parser.members Parser.construct
  | imports => Parser.imports
  | unit => Parser.unit

/-- Make a call without bounds. -/
def unbounded (context : ParseContext) : Call Value → Unbounded Value
  | advance => context.run Parser.advance
  | eat token => context.run (Parser.eat token)
  | openLevel => context.run Parser.openLevel
  | expect mark expectation => context.run (Parser.expect mark expectation)
  | upperName expectation => context.run (Parser.upperName expectation)
  | lowerName expectation => context.run (Parser.lowerName expectation)
  | typeParameters => context.readTypeParameters
  | type => context.readType
  | typeList close expectation => context.readTypeList close expectation
  | expression => context.readExpression
  | constant visibility => context.readConstant visibility
  | parameters => context.readParameters
  | function visibility => context.readFunction visibility
  | member => context.readOwnMember
  | construct => context.readConstruct
  | members => context.readMembers
  | imports => context.readImports
  | unit => context.readUnit

/-- Whether a call finds a value only behind a lexeme. -/
def passesOver : Call Value → Bool
  | advance | eat _ | openLevel | typeParameters | imports => false
  | expect _ _ | upperName _ | lowerName _ | type | typeList _ _ | expression | constant _
  | parameters | function _ | member | construct | members | unit => true

/-- A call leaves the last of the lexemes that were there. -/
theorem rest_suffix (call : Call Value) (context : ParseContext) (cursor : Cursor) :
    (call.parser context cursor).cursor.rest <:+ cursor.rest := by
  have ofSettles {parser : Parser Value} (settles : Settles parser) :
      (parser context cursor).cursor.rest <:+ cursor.rest := by
    rcases settles context cursor with ⟨count, same⟩
    rw [same]
    exact List.drop_suffix count cursor.rest
  cases call with
  | advance => exact ofSettles settles_advance
  | eat token => exact ofSettles (settles_eat token)
  | openLevel =>
      rw [parser, Parser.openLevel]
      split <;> exact List.suffix_rfl
  | expect mark expectation => exact ofSettles (settles_expect mark expectation)
  | upperName expectation => exact ofSettles (settles_upperName expectation)
  | lowerName expectation => exact ofSettles (settles_lowerName expectation)
  | typeParameters => exact ofSettles settles_typeParameters
  | type => exact ofSettles settles_type
  | typeList close expectation => exact ofSettles (settles_commaList settles_type close expectation)
  | expression => exact ofSettles settles_expression
  | constant visibility => exact ofSettles (settles_constant visibility)
  | parameters => exact ofSettles (settles_parenList settles_parameter)
  | function visibility => exact ofSettles (settles_function visibility)
  | member => exact ofSettles settles_ownMember
  | construct => exact ofSettles settles_construct
  | members => exact ofSettles (settles_withRemaining (settles_membersUpTo settles_construct))
  | imports => exact ofSettles settles_imports
  | unit => exact ofSettles settles_unit

/-- A call of a parser that is said to pass over a lexeme does so. -/
theorem advances (call : Call Value) (passesOver : call.passesOver = true) :
    Advances call.parser := by
  cases call with
  | advance | eat | openLevel | typeParameters | imports => cases passesOver
  | expect mark expectation => exact advances_expect mark expectation
  | upperName expectation => exact advances_upperName expectation
  | lowerName expectation => exact advances_lowerName expectation
  | type => exact advances_type
  | typeList close expectation =>
      exact advances_commaList advances_type settles_type close expectation
  | expression => exact advances_expression
  | constant visibility => exact advances_constant visibility
  | parameters => exact advances_parenList advances_parameter settles_parameter
  | function visibility => exact advances_function visibility
  | member => exact advances_ownMember
  | construct => exact advances_construct
  | members => exact advances_members
  | unit => exact advances_unit

/-- A call that is read without bounds ends as its parser does. -/
theorem endsAt (call : Call Value) (context : ParseContext) (cursor : Cursor) :
    Unbounded.EndsAt context cursor (call.unbounded context) call.parser := by
  cases call with
  | advance | eat | openLevel | expect | upperName | lowerName => exact Unbounded.endsAt_run _
  | typeParameters => exact Unbounded.endsAt_typeParameters
  | type => exact Unbounded.endsAt_type
  | typeList close expectation => exact Unbounded.endsAt_typeList close expectation
  | expression => exact Unbounded.endsAt_expression
  | constant visibility => exact Unbounded.endsAt_constant visibility
  | parameters => exact Unbounded.endsAt_parameters
  | function visibility => exact Unbounded.endsAt_function visibility
  | member => exact Unbounded.endsAt_ownMember
  | construct => exact Unbounded.endsAt_construct
  | members => exact Unbounded.endsAt_members
  | imports => exact Unbounded.endsAt_imports
  | unit => exact Unbounded.endsAt_unit

end Call

/-- From every lexeme on, and from their end, each call comes to an end without bounds,
as it does with them.  With a value or an error, it stops neither before its start nor
beyond the end, and with a value it stops behind its start if values are only found there.
So the lexemes of a source, read without bounds, lead to an answer, which is the one of
parsing the source. -/
theorem calls_end_and_read_on (source : List Char) (lexemes : List Lexeme) :
    (∀ (limit : Option Nat) (start depth : Nat), start ≤ lexemes.length →
      ∀ {Value : Type} (call : Call Value), ∃ result stop level,
        call.unbounded ⟨source, limit⟩ ⟨lexemes.drop start, depth⟩ =
          some (result, ⟨lexemes.drop stop, level⟩) ∧
        (call.parser ⟨source, limit⟩ ⟨lexemes.drop start, depth⟩).result = result ∧
        (call.parser ⟨source, limit⟩ ⟨lexemes.drop start, depth⟩).cursor =
          ⟨lexemes.drop stop, level⟩ ∧
        start ≤ stop ∧ stop ≤ lexemes.length ∧
        (call.passesOver = true → ∀ value, result = .ok value → start < stop)) ∧
    (lex source = .ok lexemes →
      Option.map Prod.fst (ParseContext.readUnit ⟨source, some nestingLimit⟩ ⟨lexemes, 0⟩) =
        some (parse source)) := by
  constructor
  · intro limit start depth isStart Value call
    have ends := call.endsAt ⟨source, limit⟩ ⟨lexemes.drop start, depth⟩
    have advances (passesOver : call.passesOver = true) :=
      call.advances passesOver ⟨source, limit⟩ ⟨lexemes.drop start, depth⟩
    have isSuffix := call.rest_suffix ⟨source, limit⟩ ⟨lexemes.drop start, depth⟩
    rw [Unbounded.EndsAt, ParseContext.run] at ends
    generalize call.parser ⟨source, limit⟩ ⟨lexemes.drop start, depth⟩ = outcome at *
    have stops : outcome.cursor =
        ⟨lexemes.drop (outcome.cursor.position lexemes), outcome.cursor.depth⟩ := by
      have isWholeSuffix := isSuffix.trans (List.drop_suffix start lexemes)
      rw [Cursor.position, ← List.suffix_iff_eq_drop.1 isWholeSuffix]
    have isNotLonger := isSuffix.length_le
    rw [List.length_drop] at isNotLonger
    refine ⟨outcome.result, outcome.cursor.position lexemes, outcome.cursor.depth,
      stops ▸ ends, rfl, stops, ?_, Nat.sub_le _ _, ?_⟩
    · rw [Cursor.position]
      omega
    · intro passesOver value isValue
      rcases Outcome.result_eq_ok_iff.1 isValue with ⟨after, rfl⟩
      have isShorter := advances passesOver value after rfl
      rw [List.length_drop] at isShorter
      rw [Cursor.position, Outcome.cursor]
      omega
  · intro isLexed
    have ends : Unbounded.EndsAt ⟨source, some nestingLimit⟩ ⟨lexemes, 0⟩
        (ParseContext.readUnit ⟨source, some nestingLimit⟩) Parser.unit := Unbounded.endsAt_unit
    rw [Unbounded.EndsAt, ParseContext.run] at ends
    rw [ends]
    simp only [parse, parseWithin, isLexed]
    rfl

/-- Behind a parenthesis two types are read as a list.  There is no list when an angle
bracket is to close it, but reading has gone on to the other parenthesis all the same. -/
theorem pair_of_types_ends_and_reads_on :
    let source := "class A \x7b val f: (T, int) -> T = g \x7d".toList
    let context : ParseContext := ⟨source, some nestingLimit⟩
    ∃ lexemes, lex source = .ok lexemes ∧ 7 ≤ lexemes.length ∧
      (Call.typeList .rightParen .commaOrParen).passesOver = true ∧
      (∃ stop level, 7 < stop ∧
        context.readTypeList .rightParen .commaOrParen ⟨lexemes.drop 7, 2⟩ =
          some (.ok [.named "T" [], .primitive .int], ⟨lexemes.drop stop, level⟩)) ∧
      context.readTypeList .greater .commaOrAngle ⟨lexemes.drop 7, 2⟩ =
        some (.error ⟨.unexpected .commaOrAngle (some (.mark .rightParen)), ⟨24, 25⟩⟩,
          ⟨lexemes.drop 10, 2⟩) ∧
      Option.map Prod.fst (context.readUnit ⟨lexemes, 0⟩) = some (parse source) := by
  intro source context
  let lexemes : List Lexeme :=
    [⟨.keyword .classWord, ⟨0, 5⟩⟩, ⟨.upper "A", ⟨6, 7⟩⟩, ⟨.mark .leftBrace, ⟨8, 9⟩⟩,
      ⟨.keyword .valWord, ⟨10, 13⟩⟩, ⟨.lower "f", ⟨14, 15⟩⟩, ⟨.mark .colon, ⟨15, 16⟩⟩,
      ⟨.mark .leftParen, ⟨17, 18⟩⟩, ⟨.upper "T", ⟨18, 19⟩⟩, ⟨.mark .comma, ⟨19, 20⟩⟩,
      ⟨.primitive .int, ⟨21, 24⟩⟩, ⟨.mark .rightParen, ⟨24, 25⟩⟩, ⟨.mark .arrow, ⟨26, 28⟩⟩,
      ⟨.upper "T", ⟨29, 30⟩⟩, ⟨.mark .equal, ⟨31, 32⟩⟩, ⟨.lower "g", ⟨33, 34⟩⟩,
      ⟨.mark .rightBrace, ⟨35, 36⟩⟩]
  have isLexed : lex source = .ok lexemes := by decide +kernel
  have isStart : 7 ≤ lexemes.length := by decide
  obtain ⟨calls, answers⟩ := calls_end_and_read_on source lexemes
  refine ⟨lexemes, isLexed, isStart, rfl, ?_, ?_, answers isLexed⟩
  · obtain ⟨_, stop, level, ends, rfl, _, _, _, isBehind⟩ :=
      calls (some nestingLimit) 7 2 isStart (.typeList .rightParen .commaOrParen)
    exact ⟨stop, level, isBehind rfl _ rfl, ends⟩
  · obtain ⟨_, stop, level, ends, rfl, cursor_eq, _⟩ :=
      calls (some nestingLimit) 7 2 isStart (.typeList .greater .commaOrAngle)
    rw [← cursor_eq] at ends
    exact ends

end TarnBuild
