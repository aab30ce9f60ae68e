import TarnBuild.Proofs.Grammar.Places
import TarnBuild.Proofs.Grammar.Progress
import TarnBuild.Proofs.Grammar.Unbounded

/-!
# Reading without bounds comes to an end

Each turn of a repetition passes over a lexeme, and each type or construct stands
behind a lexeme of the one around it.  So what is still to be read becomes less with
every turn and with every level, and reading without bounds comes to an end.  It ends
as the parsers do, which are given bounds and therefore never use them up.
-/

namespace TarnBuild

open Text (Span)

/-- No token follows where no lexeme is left. -/
theorem Cursor.token?_eq_none {cursor : Cursor} (isAtEnd : cursor.rest.length ≤ 0) :
    cursor.token? = none := by
  rw [token?, List.eq_nil_of_length_eq_zero (Nat.le_zero.1 isAtEnd)]
  rfl

namespace Unbounded

variable {Value : Type} {context : ParseContext} {cursor : Cursor}
  {unbounded : Unbounded Value} {parser : Parser Value}

/-! ## Lists -/

/-- Every turn of a list passes over an item, so that there are no more turns than
lexemes. -/
theorem endsAt_commaListUpTo
    {close : Mark} {expectation : Expectation} {list : Unbounded (List Value)}
    (turn : list = do
      let first ← unbounded
      if ← context.run (Parser.eat (.mark .comma)) then
        let others ← list
        return first :: others
      else
        context.run (Parser.expect close expectation)
        return [first])
    (advances : Advances parser) {size : Nat}
    (itemEnds : ∀ cursor : Cursor, cursor.rest.length ≤ size →
      EndsAt context cursor unbounded parser)
    (bound : Nat) (cursor : Cursor)
    (isWithin : cursor.rest.length ≤ size) (isBounded : cursor.rest.length ≤ bound) :
    EndsAt context cursor list (Parser.commaListUpTo parser close expectation bound) := by
  induction bound generalizing cursor with
  | zero =>
      rw [turn]
      refine (itemEnds cursor isWithin).bind fun first after ends => ?_
      have isShorter := advances context cursor first after ends
      omega
  | succ bound ih =>
      rw [turn]
      refine (itemEnds cursor isWithin).bind fun first after ends => ?_
      have isShorter := advances context cursor first after ends
      refine (endsAt_run _).bind fun eaten rest ate => endsAt_ite ?_ ?_
      · have isNotLonger := (settles_eat _).length_le_of_done ate
        exact (ih rest (by omega) (by omega)).bind fun others _ _ => endsAt_pure _
      · exact (endsAt_run _).bind fun _ _ _ => endsAt_pure _

theorem endsAt_commaList
    {close : Mark} {expectation : Expectation}
    (advances : Advances parser)
    (itemEnds : ∀ cursor, EndsAt context cursor unbounded parser) :
    EndsAt context cursor (context.readCommaList unbounded close expectation)
      (Parser.commaList parser close expectation) :=
  endsAt_commaListUpTo (ParseContext.readCommaList.eq_1 context unbounded close expectation)
    advances (fun cursor _ => itemEnds cursor) cursor.rest.length cursor le_rfl le_rfl

theorem endsAt_typeParameters :
    EndsAt context cursor context.readTypeParameters Parser.typeParameters :=
  (endsAt_run _).bind fun _ _ _ => endsAt_ite
    (endsAt_commaList (advances_upperName _) fun _ => endsAt_run _) (endsAt_pure _)

/-! ## Types -/

/-- Where no lexeme is left there is no type. -/
theorem endsAt_typeInside_of_length_le_zero (isAtEnd : cursor.rest.length ≤ 0) :
    EndsAt context cursor context.readTypeInside (Parser.unexpected .type) := by
  rw [ParseContext.readTypeInside]
  show EndsAt context cursor _ (Parser.peek >>= fun _ => Parser.unexpected .type)
  refine endsAt_peek_bind ?_
  rw [Cursor.token?_eq_none isAtEnd]
  exact endsAt_run _

/-- Each type inside a type stands behind a lexeme of the outer one. -/
theorem endsAt_typeUpTo (bound : Nat) (cursor : Cursor) (isBounded : cursor.rest.length ≤ bound) :
    EndsAt context cursor context.readType (Parser.typeUpTo bound) := by
  induction bound generalizing cursor with
  | zero =>
      rw [ParseContext.readType]
      refine endsAt_nested fun inner same => ?_
      exact endsAt_typeInside_of_length_le_zero (same ▸ isBounded)
  | succ bound ih =>
      have settles := (opensLevel_typeUpTo bound).settles
      have listEnds (cursor : Cursor) (isWithin : cursor.rest.length ≤ bound) (close : Mark)
          (expectation : Expectation) :
          EndsAt context cursor (context.readTypeList close expectation)
            (Parser.commaList (Parser.typeUpTo bound) close expectation) :=
        endsAt_commaListUpTo (ParseContext.readTypeList.eq_1 context close expectation)
          (advances_typeUpTo bound) ih cursor.rest.length cursor isWithin le_rfl
      rw [ParseContext.readType]
      refine endsAt_nested fun inner same => ?_
      have isBounded : inner.rest.length ≤ bound + 1 := same ▸ isBounded
      rw [ParseContext.readTypeInside]
      refine endsAt_peek_bind ?_
      generalize isNext : inner.token? = found
      cases found with
      | none => exact endsAt_run _
      | some token =>
        cases token with
        | primitive type => exact (endsAt_run _).bind fun _ _ _ => endsAt_pure _
        | upper name =>
            refine (endsAt_run _).bind fun _ named ends => ?_
            have isShorter := length_lt_of_advance isNext ends
            refine (endsAt_run _).bind fun _ opened ate => endsAt_ite ?_ (endsAt_pure _)
            have isNotLonger := (settles_eat _).length_le_of_done ate
            have isWithin : opened.rest.length ≤ bound := by omega
            exact (listEnds opened isWithin _ _).bind fun arguments _ _ => endsAt_pure _
        | mark sign =>
            cases sign with
            | leftParen =>
                refine (endsAt_run _).bind fun _ opened ends => ?_
                have isShorter := length_lt_of_advance isNext ends
                refine EndsAt.bind ?_ fun elements closed ends => ?_
                · refine (endsAt_run _).bind fun _ listed ate => endsAt_ite (endsAt_pure _) ?_
                  have isNotLonger := (settles_eat _).length_le_of_done ate
                  exact listEnds listed (by omega) _ _
                · have isNotLonger := (settles_parenList settles).length_le_of_done ends
                  refine (endsAt_run _).bind fun _ arrow ate => endsAt_ite ?_ (endsAt_pure _)
                  have isNotLonger := (settles_eat _).length_le_of_done ate
                  exact (ih arrow (by omega)).bind fun result _ _ => endsAt_pure _
            | _ => exact endsAt_run _
        | _ => exact endsAt_run _

/-- A type ends as its parser does, since the levels inside it are fewer than
the lexemes. -/
theorem endsAt_type : EndsAt context cursor context.readType Parser.type :=
  endsAt_typeUpTo cursor.rest.length cursor le_rfl

theorem endsAt_typeList (close : Mark) (expectation : Expectation) :
    EndsAt context cursor (context.readTypeList close expectation)
      (Parser.commaList Parser.type close expectation) :=
  endsAt_commaListUpTo (ParseContext.readTypeList.eq_1 context close expectation) advances_type
    (fun _ _ => endsAt_type) cursor.rest.length cursor le_rfl le_rfl

theorem endsAt_annotation : EndsAt context cursor context.readAnnotation Parser.annotation :=
  (endsAt_run _).bind fun _ _ _ =>
    endsAt_ite (endsAt_type.bind fun _ _ _ => endsAt_pure _) (endsAt_pure _)

/-! ## Expressions -/

/-- The lexemes of an expression are passed over one by one. -/
theorem passExpression_run (depth : Nat) (span? : Option Span) (rest : List Lexeme)
    (level : Nat) :
    context.passExpression depth span? ⟨rest, level⟩ =
      some
        (.ok ((expressionRun depth rest).depth,
            (expressionRun depth rest).taken.foldl extendSpan span?),
          ⟨(expressionRun depth rest).rest, level⟩) := by
  induction rest generalizing depth span? with
  | nil =>
      rw [ParseContext.passExpression]
      rfl
  | cons lexeme rest ih =>
      rw [ParseContext.passExpression, bind_run, expressionRun]
      simp only [ParseContext.run, Parser.nextLexeme, Outcome.result, Outcome.cursor,
        List.head?_cons, Option.bind_some]
      cases openAfter depth lexeme.token with
      | none => rfl
      | some after => exact ih after (extendSpan span? lexeme)

/-- The span that grows with each lexeme is the one that they cover. -/
theorem foldl_extendSpan (lexemes : List Lexeme) :
    lexemes.foldl extendSpan none = coveredSpan? lexemes := by
  induction lexemes using List.reverseRecOn with
  | nil => rfl
  | append_singleton front last ih =>
      rw [List.foldl_concat, ih]
      unfold coveredSpan?
      cases front with
      | nil => rfl
      | cons first front =>
        rw [List.getLast?_concat, List.getLast?_eq_some_getLast (List.cons_ne_nil first front)]
        rfl

/-- An expression is read lexeme by lexeme, and covers the text that its parser
takes as a whole. -/
theorem endsAt_expression : EndsAt context cursor context.readExpression Parser.expression := by
  rcases cursor with ⟨rest, level⟩
  unfold EndsAt ParseContext.readExpression ParseContext.run Parser.expression
  rw [bind_run, passExpression_run, foldl_extendSpan]
  simp only [Option.bind_some]
  generalize expressionRun 0 rest = run
  by_cases isOpen : run.depth ≠ 0
  · rw [if_pos isOpen, if_pos isOpen]
  · rw [if_neg isOpen, if_neg isOpen, coveredText?_eq]
    cases coveredSpan? run.taken <;> rfl

/-! ## Members -/

theorem endsAt_constant (visibility : Visibility) :
    EndsAt context cursor (context.readConstant visibility) (Parser.constant visibility) := by
  refine (endsAt_run _).bind fun name _ _ => ?_
  refine endsAt_annotation.bind fun annotation _ _ => ?_
  refine (endsAt_run _).bind fun _ _ _ => ?_
  exact endsAt_expression.bind fun value _ _ => endsAt_pure _

theorem endsAt_parameter : EndsAt context cursor context.readParameter Parser.parameter := by
  refine (endsAt_run _).bind fun name _ _ => ?_
  refine (endsAt_run _).bind fun _ _ _ => ?_
  exact endsAt_type.bind fun annotation _ _ => endsAt_pure _

theorem endsAt_parameters :
    EndsAt context cursor context.readParameters (Parser.parenList Parser.parameter) :=
  (endsAt_run _).bind fun _ _ _ => endsAt_ite (endsAt_pure _)
    (endsAt_commaList advances_parameter fun _ => endsAt_parameter)

theorem endsAt_function (visibility : Visibility) :
    EndsAt context cursor (context.readFunction visibility) (Parser.function visibility) := by
  refine (endsAt_run _).bind fun name _ _ => ?_
  refine endsAt_typeParameters.bind fun typeParameters _ _ => ?_
  refine (endsAt_run _).bind fun _ _ _ => ?_
  refine endsAt_parameters.bind fun parameters _ _ => ?_
  refine (endsAt_run _).bind fun _ _ _ => ?_
  refine endsAt_type.bind fun result _ _ => ?_
  refine (endsAt_run _).bind fun _ _ _ => ?_
  exact endsAt_expression.bind fun body _ _ => endsAt_pure _

theorem endsAt_ownMember : EndsAt context cursor context.readOwnMember Parser.ownMember := by
  refine (endsAt_run _).bind fun isPrivate middle _ => endsAt_peek_bind ?_
  cases middle.token? with
  | none => exact endsAt_run _
  | some token =>
    cases token with
    | keyword word =>
        cases word with
        | valWord =>
            refine (endsAt_run _).bind fun _ _ _ => ?_
            refine (endsAt_constant _).bind fun constant _ _ => ?_
            exact (endsAt_run _).bind fun _ _ _ => endsAt_pure _
        | functionWord =>
            refine (endsAt_run _).bind fun _ _ _ => ?_
            refine (endsAt_function _).bind fun function _ _ => ?_
            exact (endsAt_run _).bind fun _ _ _ => endsAt_pure _
        | _ => exact endsAt_run _
    | _ => exact endsAt_run _

/-! ## Constructs -/

/-- Whatever token stands there, a turn of the members closes the construct, passes
over a member, or fails. -/
theorem endsAt_membersUpTo
    {inner : Parser Construct} (innerAdvances : Advances inner) {size : Nat}
    (innerEnds : ∀ cursor : Cursor, cursor.rest.length ≤ size →
      EndsAt context cursor context.readConstruct inner)
    (bound : Nat) (cursor : Cursor)
    (isWithin : cursor.rest.length ≤ size) (isBounded : cursor.rest.length ≤ bound) :
    EndsAt context cursor context.readMembers (Parser.membersUpTo inner bound) := by
  induction bound generalizing cursor with
  | zero =>
      rw [ParseContext.readMembers]
      show EndsAt context cursor _ (Parser.peek >>= fun _ => Parser.unexpected .closingBrace)
      refine endsAt_peek_bind ?_
      rw [Cursor.token?_eq_none isBounded]
      exact endsAt_run _
  | succ bound ih =>
      have nested : EndsAt context cursor
          (do return .nested (← context.readConstruct) :: (← context.readMembers))
          (do return .nested (← inner) :: (← Parser.membersUpTo inner bound)) := by
        refine (innerEnds cursor isWithin).bind fun first after ends => ?_
        have isShorter := innerAdvances context cursor first after ends
        exact (ih after (by omega) (by omega)).bind fun others _ _ => endsAt_pure _
      have own : EndsAt context cursor
          (do return (← context.readOwnMember) :: (← context.readMembers))
          (do return (← Parser.ownMember) :: (← Parser.membersUpTo inner bound)) := by
        refine endsAt_ownMember.bind fun first after ends => ?_
        have isShorter := advances_ownMember context cursor first after ends
        exact (ih after (by omega) (by omega)).bind fun others _ _ => endsAt_pure _
      rw [ParseContext.readMembers]
      refine endsAt_peek_bind ?_
      cases cursor.token? with
      | none => exact endsAt_run _
      | some token =>
        cases token with
        | mark sign =>
            cases sign with
            | rightBrace => exact (endsAt_run _).bind fun _ _ _ => endsAt_pure _
            | _ => exact own
        | keyword word =>
            cases word with
            | moduleWord | classWord => exact nested
            | _ => exact own
        | _ => exact own

/-- Where no lexeme is left there is no construct. -/
theorem endsAt_constructInside_of_length_le_zero (isAtEnd : cursor.rest.length ≤ 0) :
    EndsAt context cursor context.readConstructInside (Parser.unexpected .constructWord) := by
  have ends : EndsAt context cursor context.readConstructInside
      (Parser.constructKind >>= fun _ => Parser.unexpected .constructWord) := by
    rw [ParseContext.readConstructInside]
    refine (endsAt_run _).bind fun kind after ends => ?_
    have isShorter := advances_constructKind context cursor kind after ends
    omega
  have same : (Parser.constructKind >>= fun _ => Parser.unexpected .constructWord) context cursor =
      (Parser.unexpected .constructWord : Parser Construct) context cursor := by
    rw [Parser.bind_run, Parser.constructKind, Parser.bind_of_done (Parser.peek_run _ _),
      Cursor.token?_eq_none isAtEnd]
    rfl
  unfold EndsAt ParseContext.run at ends ⊢
  rw [ends, same]

/-- Each construct inside a construct stands behind the word of the outer one. -/
theorem endsAt_constructUpTo (bound : Nat) (cursor : Cursor)
    (isBounded : cursor.rest.length ≤ bound) :
    EndsAt context cursor context.readConstruct (Parser.constructUpTo bound) := by
  induction bound generalizing cursor with
  | zero =>
      rw [ParseContext.readConstruct]
      refine endsAt_nested fun inner same => ?_
      exact endsAt_constructInside_of_length_le_zero (same ▸ isBounded)
  | succ bound ih =>
      rw [ParseContext.readConstruct]
      refine endsAt_nested fun inner same => ?_
      have isBounded : inner.rest.length ≤ bound + 1 := same ▸ isBounded
      rw [ParseContext.readConstructInside]
      refine (endsAt_run _).bind fun kind named ends => ?_
      have isShorter := advances_constructKind context inner kind named ends
      refine (endsAt_run _).bind fun name headed ends => ?_
      have isNotLonger := (settles_upperName _).length_le_of_done ends
      refine endsAt_typeParameters.bind fun typeParameters closed ends => ?_
      have isNotLonger := settles_typeParameters.length_le_of_done ends
      refine (endsAt_run _).bind fun _ opened ends => ?_
      have isNotLonger := (settles_expect _ _).length_le_of_done ends
      have membersEnd : EndsAt context opened context.readMembers
          (Parser.members (Parser.constructUpTo bound)) :=
        endsAt_membersUpTo (advances_constructUpTo bound) ih opened.rest.length opened
          (by omega) le_rfl
      exact membersEnd.bind fun members _ _ => endsAt_pure _

/-- A construct ends as its parser does, since the constructs inside it have
fewer lexemes. -/
theorem endsAt_construct : EndsAt context cursor context.readConstruct Parser.construct :=
  endsAt_constructUpTo cursor.rest.length cursor le_rfl

theorem endsAt_members :
    EndsAt context cursor context.readMembers (Parser.members Parser.construct) :=
  endsAt_membersUpTo advances_construct (fun _ _ => endsAt_construct) cursor.rest.length cursor
    le_rfl le_rfl

/-! ## Units -/

/-- Imports are read one by one, by induction on a bound for the lexemes before
them. -/
theorem endsAt_repeatAfter (bound : Nat) (cursor : Cursor)
    (isBounded : cursor.rest.length ≤ bound) :
    EndsAt context cursor context.readImports
      (Parser.repeatAfter (.keyword .importWord) Parser.importedName bound) := by
  induction bound generalizing cursor with
  | zero =>
      have ate : Parser.eat (.keyword .importWord) context cursor = .done false cursor :=
        Parser.eat_run_of_ne (by simp [Cursor.token?_eq_none isBounded])
      unfold EndsAt
      rw [ParseContext.readImports, bind_run]
      simp only [ParseContext.run, ate]
      rfl
  | succ bound ih =>
      rw [ParseContext.readImports]
      refine (endsAt_run _).bind fun eaten word ate => ?_
      cases eaten with
      | false => exact endsAt_pure []
      | true =>
          have isShorter := length_lt_of_eat ate
          refine (endsAt_run _).bind fun first after ends => ?_
          have isNotLonger := settles_importedName.length_le_of_done ends
          exact (ih after (by omega)).bind fun others _ _ => endsAt_pure _

theorem endsAt_imports : EndsAt context cursor context.readImports Parser.imports :=
  endsAt_repeatAfter cursor.rest.length cursor le_rfl

/-- A whole source is read to an end, and with the answer of its parser. -/
theorem endsAt_unit : EndsAt context cursor context.readUnit Parser.unit := by
  refine endsAt_imports.bind fun imports _ _ => ?_
  refine endsAt_construct.bind fun body middle _ => endsAt_peek_bind ?_
  cases middle.token? with
  | some token => exact endsAt_run _
  | none => exact endsAt_pure _

end Unbounded

end TarnBuild
