import TarnBuild.Proofs.Grammar.Resume
import TarnBuild.Proofs.Grammar.ViablePrefix
import TarnBuild.Proofs.Text.Position
import TarnBuild.Proofs.Token.Refusal

/-!
# Places lie within the source

Every error about a source names a place within it, between two characters, and
so does every expression whose text is cut out.  An error is found either where
the lexemes stop, or at the lexeme where a parser stands, or at the end of the
source.  The text of an expression reaches from one lexeme to a later one.  So
neither showing an error nor keeping a text meets a character that is cut in two.
-/

namespace TarnBuild

open Text (Span byteLength)

theorem Cut.isWithin
    {source before piece after : List Char} {span : Span}
    (cut : Cut source span before piece after) :
    span.IsWithin source := by
  rcases cut with ⟨rfl, start_eq, stop_eq⟩
  rcases span with ⟨start, stop⟩
  rw [show start = _ from start_eq, show stop = _ from stop_eq]
  exact Span.isWithin_of_append before piece after

/-! ## Places of lexemes -/

/-- Every lexeme stands in the source, at boundaries of its characters. -/
theorem TokenizedFrom.isWithin
    {source : List Char} {lexemes : List Lexeme}
    (tokenized : TokenizedFrom 0 source lexemes) :
    ∀ lexeme ∈ lexemes, lexeme.span.IsWithin source := by
  intro lexeme isIn
  rcases tokenized.tokens [] rfl lexeme isIn with ⟨before, piece, after, cut, _⟩
  exact cut.isWithin

/-- Wherever a parser stands, its place is that of a lexeme or the end. -/
theorem Cursor.place_isWithin
    {source : List Char} {lexemes : List Lexeme} {cursor : Cursor}
    (tokenized : TokenizedFrom 0 source lexemes)
    (isSuffix : cursor.rest <:+ lexemes) :
    (cursor.place source).IsWithin source := by
  rcases cursor with ⟨rest, depth⟩
  cases rest with
  | nil =>
      have atEnd := Span.isWithin_of_append source [] []
      rwa [List.append_nil, List.append_nil] at atEnd
  | cons lexeme rest =>
      exact tokenized.isWithin lexeme (isSuffix.subset List.mem_cons_self)

/-! ## Places of errors -/

/-- The errors that reading a source can end with: by its lexemes, as a whole, or
in one of several calls of the parser of units on its lexemes. -/
inductive IsRaised (source : List Char) : SourceError → Prop where
  | lexing (error : SourceError) (fails : lex source = .error error) : IsRaised source error
  | parsing (error : SourceError) (fails : parse source = .error error) : IsRaised source error
  | calling (limit : Option Nat) (calls : Nat) (lexemes : List Lexeme) (error : SourceError)
      (isLexed : lex source = .ok lexemes)
      (fails : (Parser.unit ⟨source, limit⟩
        (cursorAfter ⟨source, limit⟩ lexemes calls)).result = .error error) :
      IsRaised source error

/-- A call of the parser of units reports its error where it stands. -/
theorem isWithin_of_unit
    {context : ParseContext} {lexemes : List Lexeme} {error : SourceError}
    (tokenized : TokenizedFrom 0 context.source lexemes) (calls : Nat)
    (fails : (Parser.unit context (cursorAfter context lexemes calls)).result = .error error) :
    error.span.IsWithin context.source := by
  have isSuffix := rest_cursorAfter_suffix context lexemes (calls + 1)
  rw [cursorAfter] at isSuffix
  rw [cursorAfter_eq] at fails isSuffix
  cases ends : Parser.unit context ⟨lexemes.drop _, 0⟩ with
  | done unit after =>
      rw [ends] at fails
      cases fails
  | failed found after =>
      rw [ends] at fails isSuffix
      cases fails
      rw [Parser.span_eq_of_unit ends]
      exact Cursor.place_isWithin tokenized isSuffix

/-- An error of the parser stands at a lexeme or at the end of the source. -/
theorem IsRaised.isWithin
    {source : List Char} {error : SourceError} (isRaised : IsRaised source error) :
    error.span.IsWithin source := by
  have ofLex {error : SourceError} (fails : lex source = .error error) :
      error.span.IsWithin source := by
    rcases exists_of_lexFrom_eq_error fails with ⟨before, piece, after, _, rfl, _, _, span_eq, _⟩
    rw [span_eq, Nat.zero_add, Nat.zero_add]
    exact Span.isWithin_of_append before piece after
  cases isRaised with
  | lexing _ fails => exact ofLex fails
  | parsing _ fails =>
      cases isLexed : lex source with
      | error found =>
          have same : parse source = .error found := by simp only [parse, parseWithin, isLexed]; rfl
          cases same.symm.trans fails
          exact ofLex isLexed
      | ok lexemes =>
          simp only [parse, parseWithin, isLexed] at fails
          have tokenized : TokenizedFrom 0 source lexemes := lexFrom_eq_ok_iff.1 isLexed
          exact isWithin_of_unit tokenized 0 fails
  | calling limit calls lexemes _ isLexed fails =>
      have tokenized : TokenizedFrom 0 source lexemes := lexFrom_eq_ok_iff.1 isLexed
      exact isWithin_of_unit tokenized calls fails

/-- A message about a place within the source can be shown. -/
theorem Diagnostic.exists_render?
    {diagnostic : Diagnostic} {source : List Char}
    (isWithin : diagnostic.span.IsWithin source) :
    (∃ position, diagnostic.position? source = some position) ∧
      ∃ text, diagnostic.render? source = some text := by
  rcases isWithin.isBoundary_start with ⟨before, after, rfl, start_eq⟩
  have found : diagnostic.position? (before ++ after) = some (.after before) := by
    rw [position?, start_eq, Text.position?_byteLength]
  rw [render?, found]
  exact ⟨⟨_, rfl⟩, _, rfl⟩

/-! ## Places of expressions -/

/-- From the start of the first to the end of the last of some lexemes. -/
def coveredSpan? (lexemes : List Lexeme) : Option Span :=
  match lexemes.head?, lexemes.getLast? with
  | some first, some last => some ⟨first.span.start, last.span.stop⟩
  | _, _ => none

/-- The text of lexemes is the slice of the source at their span. -/
theorem coveredText?_eq (source : List Char) (lexemes : List Lexeme) :
    coveredText? source lexemes = (coveredSpan? lexemes).map (Text.slice source) := by
  unfold coveredText? coveredSpan?
  cases lexemes.head? with
  | none => rfl
  | some first =>
      cases lexemes.getLast? with
      | none => rfl
      | some last => rfl

/-- Consecutive lexemes cover a part of the source. -/
theorem TokenizedFrom.coveredSpan?_isWithin
    {source : List Char} {front run back : List Lexeme} {span : Span}
    (tokenized : TokenizedFrom 0 source (front ++ run ++ back))
    (isCovered : span ∈ coveredSpan? run) :
    span.IsWithin source := by
  cases run with
  | nil => cases isCovered
  | cons first rest =>
      rcases tokenized.exists_excerpt (by simp) with ⟨piece, _, ⟨before, after, cut⟩, _⟩
      rw [coveredSpan?, List.head?_cons, List.getLast?_eq_some_getLast (by simp)] at isCovered
      cases isCovered
      exact cut.isWithin

/-- Every error about a source has its place within the source, so that its line
and column can be found and it can be shown.  And at whatever lexeme the parser of
expressions is called, it slices the source within the source. -/
theorem errors_and_expressions_isWithin (source : List Char) :
    (∀ error, IsRaised source error →
      error.span.IsWithin source ∧
        (∃ position, error.diagnostic.position? source = some position) ∧
        ∃ text, error.diagnostic.render? source = some text) ∧
    ∀ lexemes front rest, lex source = .ok lexemes → lexemes = front ++ rest →
      ∀ span ∈ coveredSpan? (expressionRun 0 rest).taken, span.IsWithin source ∧
        coveredText? source (expressionRun 0 rest).taken = some (Text.slice source span) := by
  constructor
  · intro error isRaised
    have isWithin := isRaised.isWithin
    exact ⟨isWithin, error.diagnostic.exists_render? isWithin⟩
  · rintro lexemes front rest isLexed rfl span isCovered
    have tokenized : TokenizedFrom 0 source (front ++ rest) := lexFrom_eq_ok_iff.1 isLexed
    rw [(continues_of_expressionRun 0 rest).1, ← List.append_assoc] at tokenized
    refine ⟨tokenized.coveredSpan?_isWithin isCovered, ?_⟩
    rw [coveredText?_eq, isCovered]
    rfl

/-- The second brace is too much, behind an expression with a character of two bytes. -/
theorem surplus_brace_isWithin :
    let source := "class A \x7b val x = 'é' \x7d \x7d".toList
    let error : SourceError := ⟨.surplus (.mark .rightBrace) .classKind, ⟨25, 26⟩⟩
    IsRaised source error ∧ error.span.IsWithin source ∧ Span.IsWithin ⟨18, 22⟩ source := by
  intro source error
  have isLexed : lex source = .ok
      [⟨.keyword .classWord, ⟨0, 5⟩⟩, ⟨.upper "A", ⟨6, 7⟩⟩, ⟨.mark .leftBrace, ⟨8, 9⟩⟩,
        ⟨.keyword .valWord, ⟨10, 13⟩⟩, ⟨.lower "x", ⟨14, 15⟩⟩, ⟨.mark .equal, ⟨16, 17⟩⟩,
        ⟨.charLiteral, ⟨18, 22⟩⟩, ⟨.mark .rightBrace, ⟨23, 24⟩⟩,
        ⟨.mark .rightBrace, ⟨25, 26⟩⟩] := by
    decide +kernel
  have fails : parse source = .error error := by
    simp only [parse, parseWithin, isLexed]
    rfl
  have isRaised : IsRaised source error := .parsing error fails
  rcases errors_and_expressions_isWithin source with ⟨errors, expressions⟩
  exact ⟨isRaised, (errors error isRaised).1,
    (expressions _ (List.take 6 _) (List.drop 6 _) isLexed (List.take_append_drop 6 _).symm
      ⟨18, 22⟩ (by decide)).1⟩

end TarnBuild
