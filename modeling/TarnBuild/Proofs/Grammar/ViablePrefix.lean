import TarnBuild.Proofs.Grammar.Complete
import TarnBuild.Proofs.Grammar.TokensOnly
import TarnBuild.Proofs.Grammar.Viable

/-!
# Errors are found in time

Whatever stands before an error in the grammar of a source is the front of a
source without errors.  So an error is reported where no source without errors
can go on, and not later.

This has two exceptions, both due to the nesting limit: the error may be that
the limit is exceeded, and where as many constructs are open as the limit
allows, a function cannot be given the type that it needs.
-/

namespace TarnBuild

/-- The lexemes that start before an offset. -/
def lexemesBefore (offset : Nat) (lexemes : List Lexeme) : List Lexeme :=
  lexemes.takeWhile (·.span.start < offset)

/-- The lexemes before the place of a cursor are the ones that were passed over. -/
theorem lexemesBefore_place
    {source : List Char} {read rest : List Lexeme} {depth : Nat}
    (tokenized : TokenizedFrom 0 source (read ++ rest)) :
    lexemesBefore (Cursor.place ⟨rest, depth⟩ source).start (read ++ rest) = read := by
  have nonempty := (List.forall_mem_append.1 tokenized.nonempty).1
  cases rest with
  | nil =>
      have inSource := tokenized.stop_le
      rw [List.append_nil] at inSource ⊢
      refine List.takeWhile_eq_self_iff.2 fun lexeme isIn => decide_eq_true ?_
      have notEmpty := nonempty lexeme isIn
      have within := inSource lexeme isIn
      show lexeme.span.start < Text.byteLength source
      omega
  | cons next rest =>
      have increasing := (List.pairwise_append.1 tokenized.increasing).2.2
      have before : ∀ lexeme ∈ read, decide (lexeme.span.start < next.span.start) = true := by
        intro lexeme isIn
        have notEmpty := nonempty lexeme isIn
        have earlier := increasing lexeme isIn next (by simp)
        exact decide_eq_true (by omega)
      show (read ++ next :: rest).takeWhile (·.span.start < next.span.start) = read
      rw [List.takeWhile_append_of_pos before, List.takeWhile_cons_of_neg (by simp),
        List.append_nil]

/-- An error in the grammar is found at the place of the cursor. -/
theorem Parser.span_eq_of_unit
    {context : ParseContext} {lexemes : List Lexeme} {error : SourceError} {after : Cursor}
    (ends : Parser.unit context ⟨lexemes, 0⟩ = .failed error after) :
    error.span = after.place context.source := by
  let twins : Twins := ⟨context, context, lexemes, lexemes, rfl, rfl⟩
  have agree : twins.Ends _ (Parser.unit context ⟨lexemes, 0⟩) _ :=
    Twins.agree_unit _ _ (Twins.Level.start twins 0)
  rw [ends] at agree
  exact agree.span_eq

/-- Lexemes with the tokens of a tree that keeps the limit are read as a unit. -/
theorem exists_parse_of_tokens_eq
    {source : List Char} {lexemes : List Lexeme} {tree : UnitTree}
    (isLexed : lex source = .ok lexemes)
    (sameTokens : tree.lexemes.map Lexeme.token = lexemes.map Lexeme.token)
    (keepsLimit : tree.height ≤ nestingLimit) :
    ∃ unit, parse source = .ok unit := by
  let context : ParseContext := ⟨source, some nestingLimit⟩
  let twins : Twins := ⟨context, context, tree.lexemes, lexemes, rfl, sameTokens⟩
  have hasRoom : context.HasRoom 0 tree.height := by
    simpa [ParseContext.HasRoom, context] using keepsLimit
  have agree : twins.Ends _ (Parser.unit context ⟨tree.lexemes, 0⟩)
      (Parser.unit context ⟨lexemes, 0⟩) := Twins.agree_unit _ _ (Twins.Level.start twins 0)
  rw [Parser.unit_run tree hasRoom] at agree
  simp only [parse, parseWithin, isLexed]
  generalize ends : Parser.unit context ⟨lexemes, 0⟩ = outcome at agree
  cases agree with
  | done _ unit _ after => exact ⟨unit, congrArg Outcome.result ends⟩

/-- The text before the place of a cursor goes on with any tokens that can be
written. -/
theorem exists_continuation
    {source : List Char} {read rest : List Lexeme} {tokens : List Token} (depth : Nat)
    (tokenized : TokenizedFrom 0 source (read ++ rest))
    (areWritable : ∀ token ∈ tokens, token.IsWritable) :
    ∃ before completion lexemes,
      Text.prefixTo? source (Cursor.place ⟨rest, depth⟩ source).start = some before ∧
        lex (before ++ completion) = .ok (read ++ lexemes) ∧
          lexemes.map Lexeme.token = tokens := by
  rcases tokenized.exists_cut read with ⟨before, after, rfl, start_eq, atEnd, goesOn⟩
  rcases exists_text_of_isWritable areWritable (Text.byteLength before) with
    ⟨text, lexemes, others, sameTokens⟩
  have isPlace : (Cursor.place ⟨rest, depth⟩ (before ++ after)).start =
      Text.byteLength before := by
    cases rest with
    | nil => simp [Cursor.place, atEnd rfl]
    | cons next rest =>
        have same := start_eq next rfl
        rwa [Nat.zero_add] at same
  refine ⟨before, '\n' :: text, lexemes, ?_, ?_, sameTokens⟩
  · rw [isPlace, Text.prefixTo?_append]
  · exact lexFrom_eq_ok_iff.2 (goesOn text lexemes (by simpa using others))

/-- The text before an error in the grammar can go on to a text that is read
as a unit, unless too many constructs are open there. -/
theorem exists_completion_of_parse_eq_error
    {source : List Char} {lexemes : List Lexeme} {error : SourceError}
    (isLexed : lex source = .ok lexemes)
    (fails : parse source = .error error)
    (notTooDeep : error.fault ≠ .nestingTooDeep)
    (hasRoom : openConstructs (lexemesBefore error.span.start lexemes) < nestingLimit) :
    ∃ before completion unit, Text.prefixTo? source error.span.start = some before ∧
      parse (before ++ completion) = .ok unit := by
  let context : ParseContext := ⟨source, some nestingLimit⟩
  have tokenized : TokenizedFrom 0 source lexemes := lexFrom_eq_ok_iff.1 isLexed
  have roomAtStart : context.HasRoom 0 1 := by
    simp [ParseContext.HasRoom, context, nestingLimit]
  have follows := explores_unit roomAtStart ⟨lexemes, 0⟩ rfl
  simp only [parse, parseWithin, isLexed] at fails
  generalize ends : Parser.unit context ⟨lexemes, 0⟩ = outcome at follows
  have result_eq : outcome.result = .error error := ends ▸ fails
  cases follows with
  | done value after => cases result_eq
  | tooDeep place after =>
      cases result_eq
      exact (notTooDeep rfl).elim
  | failed _ after read rest_eq completable =>
      cases result_eq
      have span_eq := Parser.span_eq_of_unit ends
      rcases after with ⟨rest, depth⟩
      dsimp only at rest_eq
      subst rest_eq
      rw [span_eq, lexemesBefore_place tokenized] at hasRoom
      have roomInHead : context.RoomInHead 0 read := by
        intro limit isLimit
        cases isLimit
        exact Nat.sub_pos_of_lt hasRoom
      rcases completable roomInHead with ⟨added, areWritable, tree, keepsLimit, same⟩
      rcases exists_continuation depth tokenized (List.forall_mem_map.2 areWritable) with
        ⟨before, completion, lexemes, isBefore, isLexedAgain, sameTokens⟩
      have sameAgain : tree.lexemes.map Lexeme.token = (read ++ lexemes).map Lexeme.token := by
        rw [same, List.map_append, List.map_append, sameTokens]
      rcases exists_parse_of_tokens_eq isLexedAgain sameAgain (keepsLimit _ rfl) with
        ⟨unit, parsed⟩
      exact ⟨before, completion, unit, span_eq ▸ isBefore, parsed⟩

/-- A parameter list is left open: the text before the brace goes on. -/
theorem open_parameters_have_completion :
    let source := "class A \x7b function f(a: int \x7d".toList
    ∃ lexemes error, lex source = .ok lexemes ∧ parse source = .error error ∧
      error.span = ⟨28, 29⟩ ∧
        ∃ before completion unit, Text.prefixTo? source error.span.start = some before ∧
          parse (before ++ completion) = .ok unit := by
  intro source
  have isLexed : lex source = .ok
      [⟨.keyword .classWord, ⟨0, 5⟩⟩, ⟨.upper "A", ⟨6, 7⟩⟩, ⟨.mark .leftBrace, ⟨8, 9⟩⟩,
        ⟨.keyword .functionWord, ⟨10, 18⟩⟩, ⟨.lower "f", ⟨19, 20⟩⟩, ⟨.mark .leftParen, ⟨20, 21⟩⟩,
        ⟨.lower "a", ⟨21, 22⟩⟩, ⟨.mark .colon, ⟨22, 23⟩⟩, ⟨.primitive .int, ⟨24, 27⟩⟩,
        ⟨.mark .rightBrace, ⟨28, 29⟩⟩] := by
    decide +kernel
  have fails : parse source =
      .error ⟨.unexpected .commaOrParen (some (.mark .rightBrace)), ⟨28, 29⟩⟩ := by
    simp only [parse, parseWithin, isLexed]
    rfl
  exact ⟨_, _, isLexed, fails, rfl,
    exists_completion_of_parse_eq_error isLexed fails (by decide) (by decide)⟩

end TarnBuild
