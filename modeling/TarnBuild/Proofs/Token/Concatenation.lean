import TarnBuild.Proofs.Token.Continuation

/-!
# Texts put together

Reading looks at nothing but the text ahead: at another offset the same text
gives the same answer, with all places moved.  And where a text has been read
to its end, a layout character after it keeps what follows apart, so that the
rest is read as if it stood alone.  After a line feed this holds for every
text; other layout characters do not end a comment that runs to the end of the
line, so the text before them has to end with a token.
-/

namespace TarnBuild

open Text (Span byteLength)

/-! ## Places further on -/

/-- The span so many bytes further on. -/
def Text.Span.shift (distance : Nat) (span : Span) : Span :=
  ⟨span.start + distance, span.stop + distance⟩

/-- The same token so many bytes further on. -/
def Lexeme.shift (distance : Nat) (lexeme : Lexeme) : Lexeme :=
  { lexeme with span := lexeme.span.shift distance }

/-- The same fault so many bytes further on. -/
def SourceError.shift (distance : Nat) (error : SourceError) : SourceError :=
  { error with span := error.span.shift distance }

/-- The answer to a text that starts so many bytes further on in its source. -/
def shiftAnswer (distance : Nat) :
    Except SourceError (List Lexeme) → Except SourceError (List Lexeme)
  | .ok lexemes => .ok (lexemes.map (Lexeme.shift distance))
  | .error error => .error (error.shift distance)

theorem Lexeme.shift_mk (distance : Nat) (token : Token) (start stop : Nat) :
    Lexeme.shift distance ⟨token, ⟨start, stop⟩⟩ =
      ⟨token, ⟨start + distance, stop + distance⟩⟩ := rfl

/-- Where a text starts in its source decides nothing but the places. -/
theorem lexFrom_add (offset distance : Nat) (text : List Char) :
    lexFrom (offset + distance) text = shiftAnswer distance (lexFrom offset text) := by
  fun_induction lexFrom offset text with
  | case1 => rw [lexFrom]; rfl
  | case2 offset first rest skipped after scan ih =>
      rw [lexFrom_of_gap scan, Nat.add_right_comm, ih]
  | case3 offset first rest token piece after scan next lexemes read ih =>
      rw [lexFrom_of_token scan, Nat.add_right_comm, ih, read]
      rfl
  | case4 offset first rest token piece after scan next error read ih =>
      rw [lexFrom_of_token scan, Nat.add_right_comm, ih, read]
      rfl
  | case5 offset first rest scan =>
      rw [lexFrom_of_openComment scan, Nat.add_right_comm]
      rfl
  | case6 offset first rest characters scan =>
      rw [lexFrom_of_stray scan, Nat.add_right_comm]
      rfl

theorem lexFrom_eq_shiftAnswer (offset : Nat) (text : List Char) :
    lexFrom offset text = shiftAnswer offset (lex text) := by
  rw [lex, ← lexFrom_add, Nat.zero_add]

/-! ## Going on after a text -/

/-- Where the last of some lexemes stops, or where they start if there are none. -/
def lastStop (offset : Nat) : List Lexeme → Nat
  | [] => offset
  | lexeme :: rest => lastStop lexeme.span.stop rest

/-- A text that has been read and a layout character after it are followed by
what can be read of the rest. -/
theorem TokenizedFrom.lexFrom_append
    {offset : Nat} {text : List Char} {lexemes : List Lexeme} {next : Char}
    (tokenized : TokenizedFrom offset text lexemes)
    (layout : isLayout next)
    (separates : next = '\n' ∨ lastStop offset lexemes = offset + byteLength text)
    (more : List Char) :
    lexFrom offset (text ++ next :: more) =
      (lexFrom (offset + byteLength text) (next :: more)).map (lexemes ++ ·) := by
  induction tokenized with
  | gap offset gap isGap =>
      have isGap : IsGap (next :: more) gap := by
        rcases separates with rfl | sameStop
        · exact isGap.congr (by simp)
        · -- No gap is left after the start.
          have empty : gap = [] :=
            Text.byteLength_eq_zero_iff.1 (by simpa [lastStop] using sameStop)
          exact empty ▸ .nil
      rw [lexFrom_gap_append isGap]
      cases lexFrom (offset + byteLength gap) (next :: more) <;> rfl
  | token offset gap piece rest token lexemes isGap isToken _ ih =>
      have sameNext : ∀ character ∈ (piece ++ (rest ++ next :: more)).head?,
          character = '\n' ∨ character ∈ (piece ++ rest).head? := by
        intro character isNext
        cases piece with
        | nil => exact (pattern_ne_nil isToken.isWritten rfl).elim
        | cons => exact .inr isNext
      have others := ih (separates.imp id fun sameStop => by
        simpa [lastStop, Nat.add_assoc] using sameStop)
      have isToken : IsToken token piece (rest ++ next :: more) := by
        rw [← List.append_nil rest] at isToken
        exact isToken.before_layout layout more
      rw [List.append_assoc, List.append_assoc, lexFrom_gap_append (isGap.congr sameNext)]
      cases piece with
      | nil => exact (pattern_ne_nil isToken.isWritten rfl).elim
      | cons first characters =>
          rw [List.cons_append, lexFrom_of_token (start_of_isToken isToken), others]
          simp only [Text.byteLength_append, Nat.add_assoc]
          cases lexFrom _ (next :: more) <;> rfl

/-- After a text that ends with a token and a space, the rest is read on its own. -/
theorem lex_append_space_append
    {text : List Char} {lexemes : List Lexeme}
    (isLexed : lex text = .ok lexemes)
    (stops : lastStop 0 lexemes = byteLength text)
    (more : List Char) :
    lex (text ++ ' ' :: more) = (lexFrom (byteLength text + 1) more).map (lexemes ++ ·) := by
  have tokenized : TokenizedFrom 0 text lexemes := lexFrom_eq_ok_iff.1 isLexed
  have space : Scan.start ' ' more = .gap [' '] more := rfl
  rw [lex, tokenized.lexFrom_append (by decide) (.inr (by rw [stops, Nat.zero_add])),
    lexFrom_of_gap space, Nat.zero_add]
  rfl

/-- After a text that can be read and a line feed, another text is read as if
it stood alone, with all places moved: to its lexemes, or to its fault. -/
theorem lex_append_lineFeed_append
    {text : List Char} {lexemes : List Lexeme}
    (isLexed : lex text = .ok lexemes)
    (more : List Char) :
    (∀ others, lex more = .ok others →
      lex (text ++ '\n' :: more) =
        .ok (lexemes ++ others.map (Lexeme.shift (byteLength text + 1)))) ∧
    ∀ fault span, lex more = .error ⟨fault, span⟩ →
      lex (text ++ '\n' :: more) = .error ⟨fault, span.shift (byteLength text + 1)⟩ := by
  have tokenized : TokenizedFrom 0 text lexemes := lexFrom_eq_ok_iff.1 isLexed
  have lineFeed : Scan.start '\n' more = .gap ['\n'] more := rfl
  have whole : lex (text ++ '\n' :: more) =
      (shiftAnswer (byteLength text + 1) (lex more)).map (lexemes ++ ·) := by
    rw [lex, tokenized.lexFrom_append (by decide) (.inl rfl), lexFrom_of_gap lineFeed,
      lexFrom_eq_shiftAnswer, Nat.zero_add]
    rfl
  constructor
  · intro others isRead
    rw [whole, isRead]
    rfl
  · intro fault span isRead
    rw [whole, isRead]
    rfl

/-- The first text ends in a comment, and the second breaks off in a literal. -/
theorem comment_lineFeed_open_literal :
    let text := "a // b".toList
    let more := "c \"é".toList
    lex text = .ok [⟨.lower "a", ⟨0, 1⟩⟩] ∧
      lex more = .error ⟨.unexpectedCharacters ['"', 'é'], ⟨2, 5⟩⟩ ∧
      lex (text ++ '\n' :: more) = .error ⟨.unexpectedCharacters ['"', 'é'], ⟨9, 12⟩⟩ := by
  intro text more
  have isLexed : lex text = .ok [⟨.lower "a", ⟨0, 1⟩⟩] := by decide +kernel
  have fails : lex more = .error ⟨.unexpectedCharacters ['"', 'é'], ⟨2, 5⟩⟩ := by
    decide +kernel
  exact ⟨isLexed, fails, (lex_append_lineFeed_append isLexed more).2 _ _ fails⟩

end TarnBuild
