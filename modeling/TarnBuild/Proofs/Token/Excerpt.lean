import TarnBuild.Proofs.Text.Trim
import TarnBuild.Proofs.Token.Concatenation

/-!
# Excerpts of a source

The text from the first to the last of some consecutive lexemes is an excerpt
of its source.  Cutting off what follows can only take longer words away, and
what stands before does not matter, so an excerpt by itself is read to the
lexemes that it was cut out for.
-/

namespace TarnBuild

open Text (Span byteLength isBlank)

/-! ## Cutting off what follows -/

/-- A token stays a token when less of the text after it is looked at. -/
theorem IsToken.of_append
    {token : Token} {piece front back : List Char}
    (isToken : IsToken token piece (front ++ back)) :
    IsToken token piece front where
  isWritten := isToken.isWritten
  longest longer isPrefix := by
    refine isToken.longest longer ?_
    rw [← List.append_assoc]
    exact isPrefix.trans (List.prefix_append _ _)

/-- A text can be cut off right after any of its lexemes. -/
theorem TokenizedFrom.exists_front
    {offset : Nat} {text : List Char} (run : List Lexeme) {back : List Lexeme}
    (tokenized : TokenizedFrom offset text (run ++ back)) :
    ∃ piece after, text = piece ++ after ∧ TokenizedFrom offset piece run ∧
      lastStop offset run = offset + byteLength piece := by
  induction run generalizing offset text with
  | nil => exact ⟨[], text, rfl, .gap offset [] .nil, rfl⟩
  | cons first run ih =>
      cases tokenized with
      | token _ gap word rest token _ isGap isToken others =>
          rcases ih others with ⟨piece, after, rfl, tokenized, stops⟩
          have sameNext : ∀ character ∈ (word ++ piece).head?,
              character = '\n' ∨ character ∈ (word ++ (piece ++ after)).head? := by
            intro character isNext
            cases word with
            | nil => exact (pattern_ne_nil isToken.isWritten rfl).elim
            | cons => exact .inr isNext
          refine ⟨gap ++ (word ++ piece), after, by simp, ?_, ?_⟩
          · exact .token offset gap word piece token run (isGap.congr sameNext)
              isToken.of_append tokenized
          · simpa [lastStop, Nat.add_assoc] using stops

/-! ## Leaving out what stands before -/

/-- A text can be read from any of its lexemes on. -/
theorem TokenizedFrom.exists_back
    {offset : Nat} {text : List Char} (front : List Lexeme) {first : Lexeme}
    {rest : List Lexeme}
    (tokenized : TokenizedFrom offset text (front ++ first :: rest)) :
    ∃ before after, text = before ++ after ∧
      first.span.start = offset + byteLength before ∧
        TokenizedFrom (offset + byteLength before) after (first :: rest) := by
  induction front generalizing offset text with
  | nil =>
      cases tokenized with
      | token _ gap word others token _ isGap isToken tokenized =>
          refine ⟨gap, word ++ others, rfl, rfl, ?_⟩
          exact .token _ [] word others token rest .nil isToken tokenized
  | cons other front ih =>
      cases tokenized with
      | token _ gap word others token _ isGap isToken tokenized =>
          rcases ih tokenized with ⟨before, after, rfl, starts, tokenized⟩
          refine ⟨gap ++ (word ++ before), after, by simp, ?_, ?_⟩
          · simpa [Nat.add_assoc] using starts
          · simpa [Nat.add_assoc] using tokenized

/-! ## Excerpts -/

theorem Cut.slice_eq
    {source before piece after : List Char} {span : Span}
    (cut : Cut source span before piece after) :
    Text.slice source span = piece := by
  rcases cut with ⟨rfl, start_eq, stop_eq⟩
  rcases span with ⟨start, stop⟩
  rw [show start = _ from start_eq, show stop = _ from stop_eq, Text.byteLength_append]
  exact Text.slice_append_append before piece after

theorem lastStop_eq_getLast
    {lexemes : List Lexeme} (nonempty : lexemes ≠ []) (offset : Nat) :
    lastStop offset lexemes = (lexemes.getLast nonempty).span.stop := by
  induction lexemes generalizing offset with
  | nil => exact (nonempty rfl).elim
  | cons lexeme rest ih =>
      cases rest with
      | nil => rfl
      | cons next rest => exact ih (by simp) lexeme.span.stop

/-- A text that stops with its last lexeme does not end with a blank character. -/
theorem TokenizedFrom.not_isBlank_getLast
    {offset : Nat} {text : List Char} {lexemes : List Lexeme}
    (tokenized : TokenizedFrom offset text lexemes)
    (stops : lastStop offset lexemes = offset + byteLength text) :
    ∀ character ∈ text.getLast?, ¬ isBlank character := by
  induction tokenized with
  | gap offset gap isGap =>
      have empty : gap = [] := Text.byteLength_eq_zero_iff.1 (by simpa [lastStop] using stops)
      rw [empty]
      intro character isLast
      cases isLast
  | token offset gap piece rest token lexemes _ isToken _ ih =>
      have inRest := ih (by simpa [lastStop, Nat.add_assoc] using stops)
      have notEmpty := pattern_ne_nil isToken.isWritten
      rw [← List.append_assoc, List.getLast?_append]
      cases isLast : rest.getLast? with
      | some last =>
          rw [isLast] at inRest
          exact inRest
      | none =>
          rw [Option.none_or, List.getLast?_append, List.getLast?_eq_some_getLast notEmpty,
            Option.some_or, ← List.getLast?_eq_some_getLast notEmpty]
          exact (not_isBlank_of_mem_ends isToken.isWritten).2

/-- A piece of a source that reaches from the first to the last of some lexemes,
and is read to them at its place. -/
structure IsExcerpt (source : List Char) (lexemes : List Lexeme) (piece : List Char) : Prop where
  nonempty : lexemes ≠ []
  exists_cut : ∃ before after, Cut source
    ⟨(lexemes.head nonempty).span.start, (lexemes.getLast nonempty).span.stop⟩ before piece after
  tokenized : TokenizedFrom (lexemes.head nonempty).span.start piece lexemes

/-- The text from the first to the last of consecutive lexemes is an excerpt. -/
theorem TokenizedFrom.exists_excerpt
    {source : List Char} {front run back : List Lexeme}
    (tokenized : TokenizedFrom 0 source (front ++ run ++ back))
    (nonempty : run ≠ []) :
    ∃ piece, IsExcerpt source run piece := by
  cases run with
  | nil => exact (nonempty rfl).elim
  | cons first rest =>
      rw [List.append_assoc, List.cons_append] at tokenized
      rcases tokenized.exists_back with ⟨before, others, rfl, starts, fromFirst⟩
      rw [← List.cons_append] at fromFirst
      rcases fromFirst.exists_front with ⟨piece, after, rfl, ofRun, stops⟩
      rw [lastStop_eq_getLast nonempty] at stops
      refine ⟨piece, nonempty, ⟨before, after, ?_, ?_, ?_⟩, ?_⟩
      · rw [List.append_assoc]
      · simpa using starts
      · simpa using stops
      · rw [List.head_cons, starts]
        exact ofRun

namespace IsExcerpt

variable {source piece : List Char} {lexemes : List Lexeme}

/-- The excerpt stops with its last lexeme. -/
theorem stops (isExcerpt : IsExcerpt source lexemes piece) :
    lastStop (lexemes.head isExcerpt.nonempty).span.start lexemes =
      (lexemes.head isExcerpt.nonempty).span.start + byteLength piece := by
  rcases isExcerpt.exists_cut with ⟨before, after, cut⟩
  have start_eq := cut.start_eq
  have stop_eq := cut.stop_eq
  rw [lastStop_eq_getLast isExcerpt.nonempty]
  rw [Text.byteLength_append] at stop_eq
  exact stop_eq.trans (by rw [start_eq])

/-- By itself the excerpt is read to the same lexemes, with all places moved to
the front. -/
theorem exists_lex_eq_ok (isExcerpt : IsExcerpt source lexemes piece) :
    ∃ own, lex piece = .ok own ∧
      own.map (Lexeme.shift (lexemes.head isExcerpt.nonempty).span.start) = lexemes := by
  have read := lexFrom_eq_ok_iff.2 isExcerpt.tokenized
  rw [lexFrom_eq_shiftAnswer] at read
  cases isRead : lex piece with
  | ok own =>
      rw [isRead] at read
      exact ⟨own, rfl, Except.ok.inj read⟩
  | error error =>
      rw [isRead] at read
      cases read

/-- An excerpt begins and ends with a token, and tokens do so without blank
characters. -/
theorem trimmed_eq (isExcerpt : IsExcerpt source lexemes piece) :
    Text.trimmed piece = piece := by
  refine Text.trimmed_eq_self ?_ (isExcerpt.tokenized.not_isBlank_getLast isExcerpt.stops)
  rcases isExcerpt with ⟨nonempty, _, tokenized⟩
  generalize start_eq : (lexemes.head nonempty).span.start = start at tokenized
  cases tokenized with
  | gap => exact (nonempty rfl).elim
  | token _ gap word rest token others _ isToken _ =>
      have noGap : gap = [] := Text.byteLength_eq_zero_iff.1 (by simpa using start_eq)
      rw [noGap, List.nil_append,
        List.head?_append_of_ne_nil _ (pattern_ne_nil isToken.isWritten)]
      exact (not_isBlank_of_mem_ends isToken.isWritten).1

theorem slice_eq (isExcerpt : IsExcerpt source lexemes piece) :
    Text.slice source ⟨(lexemes.head isExcerpt.nonempty).span.start,
      (lexemes.getLast isExcerpt.nonempty).span.stop⟩ = piece := by
  rcases isExcerpt.exists_cut with ⟨before, after, cut⟩
  exact cut.slice_eq

/-- By itself the excerpt reaches from its front to its end. -/
theorem own_ends (isExcerpt : IsExcerpt source lexemes piece)
    {own : List Lexeme} (isRead : lex piece = .ok own) :
    ∃ nonempty : own ≠ [], (own.head nonempty).span.start = 0 ∧
      (own.getLast nonempty).span.stop = byteLength piece := by
  rcases isExcerpt.exists_lex_eq_ok with ⟨_, isReadToo, same⟩
  cases isRead.symm.trans isReadToo
  have stops := isExcerpt.stops
  rw [lastStop_eq_getLast isExcerpt.nonempty] at stops
  rcases isExcerpt with ⟨nonempty, _, _⟩
  generalize start_eq : (lexemes.head nonempty).span.start = start at same stops
  subst same
  refine ⟨by simpa using nonempty, ?_, ?_⟩
  · rw [List.head_map] at start_eq
    exact Nat.add_eq_right.1 start_eq
  · rw [List.getLast_map, Nat.add_comm] at stops
    exact Nat.add_right_cancel stops

/-- At any place of any other source the piece is an excerpt, too. -/
theorem moved (isExcerpt : IsExcerpt source lexemes piece)
    {own : List Lexeme} (isRead : lex piece = .ok own)
    (front back : List Char) :
    IsExcerpt (front ++ piece ++ back) (own.map (Lexeme.shift (byteLength front))) piece := by
  rcases isExcerpt.own_ends isRead with ⟨nonempty, starts, stops⟩
  have start_eq : ((own.map (Lexeme.shift (byteLength front))).head
      (by simpa using nonempty)).span.start = byteLength front := by
    rw [List.head_map]
    exact (congrArg (· + byteLength front) starts).trans (Nat.zero_add _)
  refine ⟨by simpa using nonempty, ⟨front, back, rfl, start_eq, ?_⟩, ?_⟩
  · rw [List.getLast_map, Text.byteLength_append, Nat.add_comm]
    exact congrArg (· + byteLength front) stops
  · rw [start_eq]
    refine lexFrom_eq_ok_iff.1 ?_
    rw [lexFrom_eq_shiftAnswer, isRead]
    rfl

/-- At any place the piece is read to its lexemes, if a layout character comes
after it. -/
theorem lexFrom_append (isExcerpt : IsExcerpt source lexemes piece)
    {own : List Lexeme} (isRead : lex piece = .ok own)
    (offset : Nat) {next : Char} (layout : isLayout next) (more : List Char) :
    lexFrom offset (piece ++ next :: more) =
      (lexFrom (offset + byteLength piece) (next :: more)).map
        (own.map (Lexeme.shift offset) ++ ·) := by
  have tokenized : TokenizedFrom offset piece (own.map (Lexeme.shift offset)) := by
    refine lexFrom_eq_ok_iff.1 ?_
    rw [lexFrom_eq_shiftAnswer, isRead]
    rfl
  refine tokenized.lexFrom_append layout (.inr ?_) more
  rcases isExcerpt.own_ends isRead with ⟨nonempty, _, stops⟩
  rw [lastStop_eq_getLast (by simpa using nonempty), List.getLast_map, Nat.add_comm]
  exact congrArg (· + offset) stops

end IsExcerpt

end TarnBuild
