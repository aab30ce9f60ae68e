import TarnBuild.Proofs.Grammar.Fork
import TarnBuild.Proofs.Grammar.Sound
import TarnBuild.Proofs.Grammar.ViablePrefix

/-!
# What stands after an error does not matter

An error that is found at a lexeme is found there in every source that starts
with the same lexemes up to that one.  Nothing behind it has been looked at, and
nothing that follows can turn the error into another one.

Every parser of the grammar reads the common front of two sources in the same
way.  The one parser that reads on without asking for anything is that of
expressions: it either stops at a lexeme of the front, or takes all of it.
-/

namespace TarnBuild

/-! ## Expressions on a front -/

/-- Only outside all delimiters does a token end an expression. -/
theorem eq_zero_of_openAfter_eq_none {depth : Nat} {token : Token}
    (ends : openAfter depth token = none) : depth = 0 := by
  by_contra isOpen
  simp only [openAfter, if_neg isOpen] at ends
  split at ends <;> cases ends

/-- A run that stops at a lexeme stops there whatever follows. -/
theorem expressionRun_append_of_stops
    {depth : Nat} {front : List Lexeme} {lexeme : Lexeme} {rest : List Lexeme}
    (stops : (expressionRun depth front).rest = lexeme :: rest) (back : List Lexeme) :
    expressionRun depth (front ++ back) =
      ⟨(expressionRun depth front).taken, lexeme :: (rest ++ back), 0⟩ := by
  induction front generalizing depth with
  | nil => cases stops
  | cons next front ih =>
      rw [List.cons_append]
      simp only [expressionRun] at stops ⊢
      cases opens : openAfter depth next.token with
      | none =>
          rw [opens] at stops
          cases stops
          rw [eq_zero_of_openAfter_eq_none opens]
      | some after =>
          rw [opens] at stops
          dsimp only at stops ⊢
          rw [ih stops]

/-- A run that takes a whole front ends in what follows. -/
theorem length_rest_expressionRun_append_le
    {depth : Nat} {front : List Lexeme}
    (takesAll : (expressionRun depth front).rest = []) (back : List Lexeme) :
    (expressionRun depth (front ++ back)).rest.length ≤ back.length := by
  induction front generalizing depth with
  | nil =>
      rw [List.nil_append, Twins.rest_expressionRun, List.length_drop]
      exact Nat.sub_le _ _
  | cons next front ih =>
      rw [List.cons_append]
      simp only [expressionRun] at takesAll ⊢
      cases opens : openAfter depth next.token with
      | none =>
          rw [opens] at takesAll
          cases takesAll
      | some after =>
          rw [opens] at takesAll
          exact ih takesAll

/-! ## Parsers that pass over a lexeme -/

/-- A run over a lexeme leaves fewer lexemes than it found. -/
theorem Passes.length_lt
    {context : ParseContext} {before after : Cursor} {lexeme : Lexeme}
    {lexemes : List Lexeme} {height : Nat}
    (passes : Passes context before (lexeme :: lexemes) height after) :
    after.rest.length < before.rest.length := by
  rw [passes.rest_eq, List.length_append, List.length_cons]
  omega

theorem Passes.length_lt_of_ne_nil
    {context : ParseContext} {before after : Cursor} {lexemes : List Lexeme} {height : Nat}
    (passes : Passes context before lexemes height after)
    (nonempty : lexemes ≠ []) :
    after.rest.length < before.rest.length := by
  rcases List.exists_cons_of_ne_nil nonempty with ⟨lexeme, others, rfl⟩
  exact passes.length_lt

theorem advances_ownMember : Advances Parser.ownMember := by
  intro context before value after ends
  rcases Parser.sound_ownMember context before value after ends with ⟨tree, _, passes⟩
  rcases tree.exists_lexemes_eq_cons with ⟨word, place, others, _, same⟩
  rw [same] at passes
  exact passes.length_lt

theorem advances_constructKind : Advances Parser.constructKind := by
  intro context before kind after ends
  rcases Parser.passes_of_constructKind ends with ⟨place, passes⟩
  exact passes.length_lt

/-- A construct begins with its word, whatever it holds. -/
theorem advances_constructUpTo (bound : Nat) : Advances (Parser.constructUpTo bound) := by
  intro context before value after ends
  rcases Parser.sound_constructUpTo context bound before value after ends with ⟨tree, _, passes⟩
  rcases tree.exists_lexemes_eq_cons with ⟨word, place, others, _, same⟩
  rw [same] at passes
  exact passes.length_lt

namespace Fork

variable {fork : Fork} {size : Nat}

/-! ## Types -/

/-- Every level of a type begins with a lexeme of the front, so the bounds that
count the levels are never reached there. -/
theorem agree_type : fork.Agree size id Parser.type Parser.type := by
  refine agree_withRemaining (fun bound => (opensLevel_typeUpTo bound).settles) ?_
  intro smaller bound otherBound _ ih
  refine Agree.nested (agree_peek.bind_eq fun found => ?_)
  split
  · exact agree_advance.bind_eq fun _ => agree_pure rfl
  · refine agree_advance_bind ?_
    refine (agree_eat _).bind_eq fun _ => agree_ite ?_ (agree_pure rfl)
    exact (agree_commaList ih _ _).bind_eq fun arguments => agree_pure rfl
  · refine agree_advance_bind ?_
    refine (agree_parenList ih).bind_eq fun elements => ?_
    refine (agree_eat _).bind_eq fun _ => agree_ite ?_ (agree_pure rfl)
    exact ih.bind_eq fun result => agree_pure rfl
  · exact agree_unexpected _

theorem agree_typeParameters :
    fork.Agree size id Parser.typeParameters Parser.typeParameters :=
  (agree_eat _).bind_eq fun _ =>
    agree_ite (agree_commaList (agree_upperName _) _ _) (agree_pure rfl)

theorem agree_annotation : fork.Agree size id Parser.annotation Parser.annotation :=
  (agree_eat _).bind_eq fun _ =>
    agree_ite (agree_type.bind_eq fun _ => agree_pure rfl) (agree_pure rfl)

theorem agree_parameter : fork.Agree size id Parser.parameter Parser.parameter := by
  refine (agree_lowerName _).bind_eq fun name => ?_
  refine (agree_expect _ _).bind_eq fun _ => ?_
  exact agree_type.bind_eq fun annotation => agree_pure rfl

/-! ## Members -/

/-- What is kept of a value whose texts may differ in the two sources. -/
def nothing {Value : Type} (_ : Value) : Unit := ()

/-- An expression that ends in the front ends there on both sides.  Its text is
not kept, for it is cut out of the whole source. -/
theorem agree_expression : fork.Agree size nothing Parser.expression Parser.expression where
  settles := settles_expression
  ends cursor other level isShort := by
    rcases level with ⟨⟨lexeme, ahead, first, second⟩, depth_eq⟩
    rw [← List.cons_append] at first second
    cases stops : (expressionRun 0 (lexeme :: ahead)).rest with
    | nil =>
        refine .beyond _ _ ?_
        rw [Beyond, cursor_expression, first]
        exact length_rest_expressionRun_append_le stops fork.firstBranch
    | cons next rest =>
        have run := expressionRun_append_of_stops stops
        generalize (expressionRun 0 (lexeme :: ahead)).taken = taken at run
        have level : fork.Level ⟨next :: (rest ++ fork.firstBranch), cursor.depth⟩
            ⟨next :: (rest ++ fork.secondBranch), other.depth⟩ := ⟨⟨next, rest, rfl, rfl⟩, depth_eq⟩
        unfold Parser.expression
        rw [first, second, run, run]
        cases taken with
        | nil => exact level.ends_unexpected _
        | cons head others =>
          dsimp only [coveredText?]
          exact .done _ _ _ _ rfl level

/-- A constant that stays in the front ends at one lexeme of it, or with one error. -/
theorem agree_constant (visibility : Visibility) :
    fork.Agree size nothing (Parser.constant visibility) (Parser.constant visibility) := by
  refine (agree_lowerName _).bind_eq fun name => ?_
  refine agree_annotation.bind_eq fun annotation => ?_
  refine (agree_expect _ _).bind_eq fun _ => ?_
  exact agree_expression.bind fun value otherValue _ => agree_pure rfl

/-- A function that stays in the front ends at one lexeme of it, or with one error. -/
theorem agree_function (visibility : Visibility) :
    fork.Agree size nothing (Parser.function visibility) (Parser.function visibility) := by
  refine (agree_lowerName _).bind_eq fun name => ?_
  refine agree_typeParameters.bind_eq fun typeParameters => ?_
  refine (agree_expect _ _).bind_eq fun _ => ?_
  refine (agree_parenList agree_parameter).bind_eq fun parameters => ?_
  refine (agree_expect _ _).bind_eq fun _ => ?_
  refine agree_type.bind_eq fun result => ?_
  refine (agree_expect _ _).bind_eq fun _ => ?_
  exact agree_expression.bind fun body otherBody _ => agree_pure rfl

/-- The word in the front decides on both sides what the member is. -/
theorem agree_ownMember : fork.Agree size nothing Parser.ownMember Parser.ownMember := by
  refine (agree_eat _).bind_eq fun isPrivate => ?_
  refine agree_peek.bind_eq fun found => ?_
  split
  · refine agree_advance.bind_eq fun _ => ?_
    refine (agree_constant _).bind fun constant other _ => ?_
    exact (agree_discard_eat _).bind_eq fun _ => agree_pure rfl
  · refine agree_advance.bind_eq fun _ => ?_
    refine (agree_function _).bind fun function other _ => ?_
    exact (agree_discard_eat _).bind_eq fun _ => agree_pure rfl
  · exact agree_unexpected _

/-- Every member passes over a lexeme, so those after it are read from less. -/
theorem agree_members
    {inner otherInner : Parser Construct}
    (innerAgrees : fork.Agree size Construct.kind inner otherInner)
    (innerAdvances : Advances inner) :
    fork.Agree size nothing (Parser.members inner) (Parser.members otherInner) := by
  refine agree_withRemaining (settles_membersUpTo innerAgrees.settles) ?_
  intro smaller bound otherBound isSmaller ih
  have nested : fork.Agree (smaller + 1) nothing
      (do return .nested (← inner) :: (← Parser.membersUpTo inner bound))
      (do return .nested (← otherInner) :: (← Parser.membersUpTo otherInner otherBound)) := by
    refine (innerAgrees.mono isSmaller).bind_of_advances innerAdvances fun first other _ => ?_
    exact ih.bind fun others otherOthers _ => agree_pure rfl
  refine agree_peek.bind_eq fun found => ?_
  split
  · exact agree_advance.bind_eq fun _ => agree_pure rfl
  · exact nested
  · exact nested
  · refine agree_ownMember.bind_of_advances advances_ownMember fun first other _ => ?_
    exact ih.bind fun others otherOthers _ => agree_pure rfl
  · exact agree_unexpected _

/-! ## Constructs and units -/

theorem agree_constructKind :
    fork.Agree size id Parser.constructKind Parser.constructKind := by
  refine agree_peek.bind_eq fun found => ?_
  split
  · exact agree_advance.bind_eq fun _ => agree_pure rfl
  · exact agree_advance.bind_eq fun _ => agree_pure rfl
  · exact agree_unexpected _

/-- The kind of a construct is kept, since an error after the construct names it. -/
theorem agree_construct :
    fork.Agree size Construct.kind Parser.construct Parser.construct := by
  refine agree_withRemaining (fun bound => (opensLevel_constructUpTo bound).settles) ?_
  intro smaller bound otherBound _ ih
  refine Agree.nested ?_
  refine agree_constructKind.bind_of_advances advances_constructKind ?_
  rintro kind _ rfl
  refine (agree_upperName _).bind_eq fun name => ?_
  refine agree_typeParameters.bind_eq fun typeParameters => ?_
  refine (agree_expect _ _).bind_eq fun _ => ?_
  exact (agree_members ih (advances_constructUpTo bound)).bind fun members others _ =>
    agree_pure rfl

theorem agree_imports : fork.Agree size id Parser.imports Parser.imports := by
  refine agree_repeatAfter _ ?_
  refine (agree_upperName _).bind_eq fun name => ?_
  exact (agree_discard_eat _).bind_eq fun _ => agree_pure rfl

/-- Units end alike.  Only the kind of the construct is kept, which the message
about a token after it names. -/
theorem agree_unit : fork.Agree size nothing Parser.unit Parser.unit := by
  refine agree_imports.bind_eq fun imports => ?_
  refine agree_construct.bind fun body other sameKind => ?_
  refine agree_peek.bind_eq fun found => ?_
  cases found with
  | some token =>
      dsimp only
      rw [sameKind]
      exact agree_fail _
  | none => exact agree_pure rfl

end Fork

/-! ## Errors in the front -/

/-- Where a cursor stands tells what it still has to read. -/
theorem Cursor.rest_eq_of_place_eq
    {source : List Char} {lexemes : List Lexeme} (cursor other : Cursor)
    (tokenized : TokenizedFrom 0 source lexemes)
    (isSuffix : cursor.rest <:+ lexemes) (isOtherSuffix : other.rest <:+ lexemes)
    (samePlace : cursor.place source = other.place source) :
    cursor.rest = other.rest := by
  rcases isSuffix with ⟨read, rfl⟩
  rcases isOtherSuffix with ⟨otherRead, same⟩
  have isRead : lexemesBefore (cursor.place source).start _ = read :=
    lexemesBefore_place tokenized
  rw [← same] at tokenized isRead
  have isOtherRead : lexemesBefore (other.place source).start _ = otherRead :=
    lexemesBefore_place tokenized
  rw [samePlace, isOtherRead] at isRead
  rw [isRead] at same
  exact (List.append_cancel_left same).symm

/-- An error at a lexeme leaves that lexeme to be read. -/
theorem rest_eq_of_unit_eq_failed
    {context : ParseContext} {lexemes : List Lexeme} {error : SourceError} {after : Cursor}
    {index : Nat} {lexeme : Lexeme}
    (tokenized : TokenizedFrom 0 context.source lexemes)
    (ends : Parser.unit context ⟨lexemes, 0⟩ = .failed error after)
    (isFound : lexemes[index]? = some lexeme)
    (isThere : error.span = lexeme.span) :
    after.rest = lexeme :: lexemes.drop (index + 1) := by
  rcases List.getElem?_eq_some_iff.1 isFound with ⟨isIndex, rfl⟩
  rw [← List.drop_eq_getElem_cons isIndex]
  have isSuffix : after.rest <:+ lexemes := by
    rcases settles_unit context ⟨lexemes, 0⟩ with ⟨count, same⟩
    rw [ends, Outcome.cursor] at same
    rw [same]
    exact List.drop_suffix count lexemes
  refine Cursor.rest_eq_of_place_eq after ⟨lexemes.drop index, 0⟩ tokenized isSuffix
    (List.drop_suffix index lexemes) ?_
  rw [← Parser.span_eq_of_unit ends, isThere, Cursor.place, List.drop_eq_getElem_cons isIndex]

/-- If a source is rejected because of one of its lexemes, then every source with
the same lexemes up to that one is rejected with the same error. -/
theorem parse_eq_error_of_take_eq
    {source other : List Char} {lexemes others : List Lexeme} {error : SourceError}
    (index : Nat) {lexeme : Lexeme}
    (isLexed : lex source = .ok lexemes)
    (isOtherLexed : lex other = .ok others)
    (fails : parse source = .error error)
    (isFound : lexemes[index]? = some lexeme)
    (isThere : error.span = lexeme.span)
    (sameFront : lexemes.take (index + 1) = others.take (index + 1)) :
    parse other = .error error := by
  let fork : Fork :=
    { first := ⟨source, some nestingLimit⟩
      second := ⟨other, some nestingLimit⟩
      firstBranch := lexemes.drop (index + 1)
      secondBranch := others.drop (index + 1)
      limit_eq := rfl }
  have nonempty : lexemes.take (index + 1) ≠ [] := by
    have isIn := List.mem_of_getElem? isFound
    simp [List.ne_nil_of_mem isIn]
  have level := Fork.Level.start fork nonempty 0
  rw [List.take_append_drop, sameFront, List.take_append_drop] at level
  have ends : fork.Ends _ (Parser.unit fork.first ⟨lexemes, 0⟩)
      (Parser.unit fork.second ⟨others, 0⟩) :=
    Fork.agree_unit.ends _ _ level (Nat.le_add_right lexemes.length _)
  simp only [parse, parseWithin, isLexed, isOtherLexed] at fails ⊢
  change (Parser.unit fork.first ⟨lexemes, 0⟩).result = .error error at fails
  change (Parser.unit fork.second ⟨others, 0⟩).result = .error error
  generalize isRun : Parser.unit fork.first ⟨lexemes, 0⟩ = outcome at ends fails
  generalize Parser.unit fork.second ⟨others, 0⟩ = otherOutcome at ends ⊢
  cases ends with
  | done _ _ _ _ => cases fails
  | failed found after otherAfter => exact fails
  | beyond _ _ isBeyond =>
      -- The lexeme of the error belongs to the front and has still to be read.
      cases outcome with
      | done unit after => cases fails
      | failed found after =>
          cases fails
          have tokenized : TokenizedFrom 0 source lexemes := lexFrom_eq_ok_iff.1 isLexed
          have rest_eq := rest_eq_of_unit_eq_failed tokenized isRun isFound isThere
          rw [Fork.Beyond, Outcome.cursor, rest_eq, List.length_cons] at isBeyond
          exact (Nat.not_succ_le_self _ isBeyond).elim

/-- A function lacks its name.  Only the second source goes on as a function does. -/
theorem nameless_function_in_both :
    let source := "class A \x7b val x = (1) function ( \x7d )".toList
    let other := "class A \x7b val x = (1) function (): int = 2 \x7d".toList
    let error : SourceError :=
      ⟨.unexpected .functionName (some (.mark .leftParen)), ⟨31, 32⟩⟩
    ∃ lexemes others, lex source = .ok lexemes ∧ lex other = .ok others ∧
      parse source = .error error ∧ lexemes[10]? = some ⟨.mark .leftParen, error.span⟩ ∧
      lexemes.take 11 = others.take 11 ∧ parse other = .error error := by
  intro source other error
  have isLexed : lex source = .ok
      [⟨.keyword .classWord, ⟨0, 5⟩⟩, ⟨.upper "A", ⟨6, 7⟩⟩, ⟨.mark .leftBrace, ⟨8, 9⟩⟩,
        ⟨.keyword .valWord, ⟨10, 13⟩⟩, ⟨.lower "x", ⟨14, 15⟩⟩, ⟨.mark .equal, ⟨16, 17⟩⟩,
        ⟨.mark .leftParen, ⟨18, 19⟩⟩, ⟨.integerLiteral, ⟨19, 20⟩⟩, ⟨.mark .rightParen, ⟨20, 21⟩⟩,
        ⟨.keyword .functionWord, ⟨22, 30⟩⟩, ⟨.mark .leftParen, ⟨31, 32⟩⟩,
        ⟨.mark .rightBrace, ⟨33, 34⟩⟩, ⟨.mark .rightParen, ⟨35, 36⟩⟩] := by
    decide +kernel
  have isOtherLexed : lex other = .ok
      [⟨.keyword .classWord, ⟨0, 5⟩⟩, ⟨.upper "A", ⟨6, 7⟩⟩, ⟨.mark .leftBrace, ⟨8, 9⟩⟩,
        ⟨.keyword .valWord, ⟨10, 13⟩⟩, ⟨.lower "x", ⟨14, 15⟩⟩, ⟨.mark .equal, ⟨16, 17⟩⟩,
        ⟨.mark .leftParen, ⟨18, 19⟩⟩, ⟨.integerLiteral, ⟨19, 20⟩⟩, ⟨.mark .rightParen, ⟨20, 21⟩⟩,
        ⟨.keyword .functionWord, ⟨22, 30⟩⟩, ⟨.mark .leftParen, ⟨31, 32⟩⟩,
        ⟨.mark .rightParen, ⟨32, 33⟩⟩, ⟨.mark .colon, ⟨33, 34⟩⟩, ⟨.primitive .int, ⟨35, 38⟩⟩,
        ⟨.mark .equal, ⟨39, 40⟩⟩, ⟨.integerLiteral, ⟨41, 42⟩⟩, ⟨.mark .rightBrace, ⟨43, 44⟩⟩] := by
    decide +kernel
  have fails : parse source = .error error := by
    simp only [parse, parseWithin, isLexed]
    rfl
  exact ⟨_, _, isLexed, isOtherLexed, fails, rfl, rfl,
    parse_eq_error_of_take_eq 10 isLexed isOtherLexed fails rfl rfl rfl⟩

end TarnBuild
