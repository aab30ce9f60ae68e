import TarnBuild.Proofs.Token.Excerpt

/-!
# Where reading stops

A source that cannot be read is read up to the first place where neither a
token nor a gap stands.  Either a comment is opened there and never closed, or
stray characters stand there: one character that nothing starts with, an
apostrophe without a character literal, or a quotation mark without a string
literal and the items after it.  The message of the error tells the comment from
stray characters.
-/

namespace TarnBuild

open Computability
open Text (byteLength)

/-! ## What is refused -/

/-- A comment that goes on to the end of the text. -/
def IsOpenComment (text : List Char) : Prop :=
  ∃ body, text = '/' :: '*' :: body ∧ ¬ ['*', '/'] <:+: body

/-- Neither a token nor a piece of a gap starts with the character. -/
structure StartsNothing (first : Char) : Prop where
  notToken : ∀ (token : Token) rest, first :: rest ∉ token.pattern
  notTrivium : ∀ after rest, ¬ IsTrivium after (first :: rest)

/-- Characters that are no token, given the text after them. -/
inductive IsStray (after : List Char) : List Char → Prop where
  | character (first : Char) (startsNothing : StartsNothing first) : IsStray after [first]
  /-- An apostrophe that starts no character literal. -/
  | apostrophe (noLiteral : ∀ literal ∈ Pattern.char, ¬ literal <+: '\'' :: after) :
      IsStray after ['\'']
  /-- A quotation mark that starts no string literal, and all items after it. -/
  | quotation (items : List Char) (areItems : items ∈ (Pattern.quotedItem '"')∗)
      (areAll : ∀ item ∈ Pattern.quotedItem '"', ¬ item <+: after)
      (noLiteral : ∀ literal ∈ Pattern.string, ¬ literal <+: '"' :: (items ++ after)) :
      IsStray after ('"' :: items)

/-- A slash is an operator, so stray characters do not begin like a comment. -/
theorem IsStray.not_isOpenComment
    {characters after : List Char} (isStray : IsStray after characters) :
    ¬ IsOpenComment characters := by
  rintro ⟨body, opening, _⟩
  cases isStray with
  | character first startsNothing =>
      rcases List.cons.inj opening with ⟨rfl, _⟩
      exact startsNothing.notToken .symbol [] ⟨'/', by decide, rfl⟩
  | apostrophe => cases opening
  | quotation => cases opening

/-! ## What scans refuse -/

theorem notInfix_of_splitComment?_eq_none
    {text : List Char} (noClosing : splitComment? text = none) :
    ¬ ['*', '/'] <:+: text := by
  fun_induction splitComment? text with
  | case1 => simp
  | case2 => cases noClosing
  | case3 character rest notClosing ih =>
      rw [List.infix_cons_iff]
      rintro (⟨after, same⟩ | inside)
      · rcases List.cons.inj same with ⟨isStar, same⟩
        exact notClosing after isStar.symm same.symm
      · exact ih (Option.map_eq_none_iff.1 noClosing) inside

/-- No more items are split off at the end of the text, at a quotation mark, and at a
backslash without a character to escape. -/
theorem splitItems_stops (text : List Char) :
    (splitItems text).2 = [] ∨
      (∃ rest, (splitItems text).2 = '"' :: rest) ∨
      ∃ rest, (splitItems text).2 = '\\' :: rest ∧ ∀ next ∈ rest.head?, next = '\n' := by
  fun_induction splitItems text with
  | case1 => exact .inl rfl
  | case2 rest => exact .inr (.inl ⟨rest, rfl⟩)
  | case3 => exact .inr (.inr ⟨[], rfl, by simp⟩)
  | case4 escaped rest isFeed =>
      refine .inr (.inr ⟨escaped :: rest, rfl, ?_⟩)
      rintro _ ⟨⟩
      exact beq_iff_eq.1 isFeed
  | case5 _ _ _ _ ih => exact ih
  | case6 _ _ _ _ _ _ ih => exact ih

/-- The items that are split off are all that stand at the start of the text. -/
theorem not_prefix_splitItems
    (text : List Char) {item : List Char} (isItem : item ∈ Pattern.quotedItem '"') :
    ¬ item <+: (splitItems text).2 := by
  rintro ⟨more, starts⟩
  rcases Pattern.mem_quotedItem_iff.1 isItem with
    ⟨plain, notQuote, notBackslash, rfl⟩ | ⟨escaped, notFeed, rfl⟩
  · rcases splitItems_stops text with stop | ⟨rest, stop⟩ | ⟨rest, stop, _⟩
    · cases starts.trans stop
    · exact notQuote (List.cons.inj (starts.trans stop)).1
    · exact notBackslash (List.cons.inj (starts.trans stop)).1
  · rcases splitItems_stops text with stop | ⟨rest, stop⟩ | ⟨rest, stop, isFeed⟩
    · cases starts.trans stop
    · cases (List.cons.inj (starts.trans stop)).1
    · have next : rest = escaped :: more := (List.cons.inj (starts.trans stop)).2.symm
      exact notFeed (isFeed escaped (by rw [next]; rfl))

namespace Scan

/-- What a scan refuses at the start of a text is an open comment or stray
characters. -/
def Refuses (text : List Char) : Scan → Prop
  | gap _ _ => True
  | token _ _ _ => True
  | openComment => IsOpenComment text
  | stray characters => ∃ after, text = characters ++ after ∧ IsStray after characters

theorem refuses_slash (rest : List Char) : (slash rest).Refuses ('/' :: rest) := by
  unfold slash
  split
  · trivial
  · next rest =>
      split
      · trivial
      · next noClosing => exact ⟨rest, rfl, notInfix_of_splitComment?_eq_none noClosing⟩
  · trivial

theorem refuses_string (rest : List Char) : (string rest).Refuses ('"' :: rest) := by
  have whole := splitItems_append rest
  have areItems := splitItems_mem rest
  have areAll : ∀ item ∈ Pattern.quotedItem '"', ¬ item <+: (splitItems rest).2 :=
    fun item => not_prefix_splitItems rest
  unfold string
  split
  · trivial
  · next items after notClosed equation =>
      rw [equation] at whole areItems areAll
      refine ⟨after, by simp [← whole], .quotation items areItems areAll ?_⟩
      rw [whole]
      rintro literal isLiteral ⟨more, starts⟩
      rcases Pattern.mem_quoted_iff.1 isLiteral with ⟨inner, areInner, rfl⟩
      -- The literal would have been split at its closing quotation mark.
      have closed : rest = inner ++ '"' :: more := by simpa using (List.cons.inj starts).2.symm
      rw [closed, splitItems_append_quote areInner] at equation
      exact notClosed more (Prod.mk.inj equation).2.symm

theorem refuses_character (rest : List Char) : (character rest).Refuses ('\'' :: rest) := by
  by_cases scan : character rest = stray ['\'']
  · rw [scan]
    refine ⟨rest, rfl, .apostrophe ?_⟩
    rintro literal isLiteral ⟨more, starts⟩
    rcases Pattern.mem_quoted_iff.1 isLiteral with ⟨item, isItem, rfl⟩
    have closed : rest = item ++ '\'' :: more := by simpa using (List.cons.inj starts).2.symm
    rw [closed, character_append isItem] at scan
    cases scan
  · unfold character at scan ⊢
    split at scan
    · split at scan <;> simp_all [Refuses]
    · split at scan <;> simp_all [Refuses]
    · exact (scan rfl).elim

/-- A character that is stray whatever comes after it starts nothing. -/
theorem startsNothing_of_start
    {first : Char}
    (isStray : ∀ rest, start first rest = stray [first]) :
    StartsNothing first where
  notToken token rest isWritten := by
    have reaches := reaches_start isWritten []
    rw [isStray] at reaches
    exact reaches
  notTrivium after rest isTrivium := by
    cases isTrivium with
    | layout _ _ isLayout =>
        have gap : start first rest = gap [first] rest := by simp [start, isLayout first (by simp)]
        exact Scan.noConfusion (gap.symm.trans (isStray rest))
    | line =>
        have isSymbol : token .symbol ['/'] [] = stray ['/'] := isStray []
        cases isSymbol
    | block =>
        have isSymbol : token .symbol ['/'] [] = stray ['/'] := isStray []
        cases isSymbol

theorem refuses_start (first : Char) (rest : List Char) :
    (start first rest).Refuses (first :: rest) := by
  have starts := starts_start first rest
  generalize start first rest = scan at starts ⊢
  cases starts with
  | layout => trivial
  | slash => exact refuses_slash rest
  | hyphen =>
      unfold hyphen
      split <;> trivial
  | number =>
      unfold number
      dsimp only
      split
      · split <;> trivial
      · trivial
  | upper => trivial
  | lower => trivial
  | string => exact refuses_string rest
  | character => exact refuses_character rest
  | mark => trivial
  | symbol => trivial
  | stray _ _ isStray => exact ⟨rest, rfl, .character first (startsNothing_of_start isStray)⟩

end Scan

/-! ## Where reading stops -/

/-- What keeps a text from being read on, given the piece at which reading stops
and the text after it. -/
inductive StopsAt (piece after : List Char) : SourceFault → Prop where
  | openComment (isOpen : IsOpenComment piece) (atEnd : after = []) :
      StopsAt piece after .unterminatedComment
  | stray (isStray : IsStray after piece) : StopsAt piece after (.unexpectedCharacters piece)

/-- A piece of a gap stays one when less of the text after it is looked at. -/
theorem IsTrivium.of_append
    {piece front back : List Char} (isTrivium : IsTrivium (front ++ back) piece) :
    IsTrivium front piece := by
  refine isTrivium.congr fun character isNext => .inr ?_
  cases front with
  | nil => cases isNext
  | cons => exact isNext

/-- A text that cannot be read is read up to a piece that is refused, and the
error is about this piece. -/
theorem exists_of_lexFrom_eq_error
    {offset : Nat} {text : List Char} {error : SourceError}
    (fails : lexFrom offset text = .error error) :
    ∃ before piece after lexemes, text = before ++ piece ++ after ∧ piece ≠ [] ∧
      TokenizedFrom offset before lexemes ∧
      error.span = ⟨offset + byteLength before, offset + byteLength (before ++ piece)⟩ ∧
      StopsAt piece after error.fault := by
  fun_induction lexFrom offset text with
  | case1 => cases fails
  | case2 offset first rest skipped after scan ih =>
      have fits := Scan.fits_start first rest
      have splits := Scan.splits_start first rest
      rw [scan] at fits splits
      rcases ih fails with
        ⟨before, piece, others, lexemes, rfl, nonempty, tokenized, span, stops⟩
      have isTrivium : IsTrivium before skipped := by
        rw [List.append_assoc] at fits
        exact IsTrivium.of_append fits
      refine ⟨skipped ++ before, piece, others, lexemes, ?_, nonempty, .cons_gap isTrivium tokenized,
        ?_, stops⟩
      · simp [← splits.2]
      · simp [span, Nat.add_assoc]
  | case3 => cases fails
  | case4 offset first rest token word after scan next _ readOthers ih =>
      have splits := Scan.splits_start first rest
      have isToken := isToken_of_start scan
      rw [scan] at splits
      cases fails
      rcases ih readOthers with
        ⟨before, piece, others, lexemes, rfl, nonempty, tokenized, span, stops⟩
      rw [List.append_assoc] at isToken
      refine ⟨word ++ before, piece, others, _, ?_, nonempty,
        .token offset [] word before token lexemes .nil isToken.of_append tokenized, ?_, stops⟩
      · simp [← splits.2]
      · simp [span, next, Nat.add_assoc]
  | case5 offset first rest scan =>
      have refuses := Scan.refuses_start first rest
      rw [scan] at refuses
      cases fails
      exact ⟨[], first :: rest, [], [], by simp, by simp, .gap offset [] .nil, rfl,
        .openComment refuses rfl⟩
  | case6 offset first rest characters scan =>
      have splits := Scan.splits_start first rest
      have refuses := Scan.refuses_start first rest
      rw [scan] at splits refuses
      rcases refuses with ⟨after, whole, isStray⟩
      cases fails
      exact ⟨[], characters, after, [], whole, splits.1, .gap offset [] .nil, rfl, .stray isStray⟩

theorem unexpectedCharacters_message_ne (characters : List Char) :
    "unexpected character '" ++ String.ofList characters ++ "'" ≠
      "unterminated block comment" := by
  intro same
  -- The two messages differ at their third character.
  have fronts := congrArg (fun message => message.toList.take 3) same
  rw [String.toList_append, String.toList_append, List.append_assoc,
    List.take_append_of_le_length (by decide +kernel)] at fronts
  exact absurd fronts (by decide +kernel)

/-- A source that cannot be read can be read up to the place of the error.  What
stands there is either a comment that is never closed or stray characters, as
the message says. -/
theorem lex_stops_at_open_comment_or_stray
    {source : List Char} {error : SourceError}
    (fails : lex source = .error error) :
    ∃ before piece after, Cut source error.span before piece after ∧
      (∃ lexemes, lex before = .ok lexemes) ∧
      error.span.start < error.span.stop ∧ error.span.stop ≤ byteLength source ∧
      Xor (error.span.stop = byteLength source ∧ IsOpenComment piece) (IsStray after piece) ∧
      (error.fault.message = "unterminated block comment" ↔
        error.span.stop = byteLength source ∧ IsOpenComment piece) ∧
      (error.fault.message = "unexpected character '" ++ String.ofList piece ++ "'" ↔
        IsStray after piece) := by
  rcases error with ⟨fault, span⟩
  rcases exists_of_lexFrom_eq_error fails with
    ⟨before, piece, after, lexemes, rfl, nonempty, tokenized, span_eq, stops⟩
  rw [Nat.zero_add, Nat.zero_add] at span_eq
  dsimp only at span_eq stops
  subst span_eq
  have isRead : lex before = .ok lexemes := lexFrom_eq_ok_iff.2 tokenized
  refine ⟨before, piece, after, ⟨rfl, rfl, rfl⟩, ⟨lexemes, isRead⟩, ?_, ?_, ?_⟩
  · rw [Text.byteLength_append]
    exact Nat.lt_add_of_pos_right (Text.byteLength_pos_iff.2 nonempty)
  · rw [Text.byteLength_append _ after]
    exact Nat.le_add_right _ _
  · cases stops with
    | openComment isOpen atEnd =>
        have isCause : byteLength (before ++ piece) = byteLength (before ++ piece ++ after) ∧
            IsOpenComment piece := ⟨by rw [atEnd, List.append_nil], isOpen⟩
        have notStray : ¬ IsStray after piece := fun isStray => isStray.not_isOpenComment isOpen
        exact ⟨.inl ⟨isCause, notStray⟩, iff_of_true rfl isCause,
          iff_of_false (unexpectedCharacters_message_ne piece).symm notStray⟩
    | stray isStray =>
        have notCause : ¬ (byteLength (before ++ piece) = byteLength (before ++ piece ++ after) ∧
            IsOpenComment piece) := fun isCause => isStray.not_isOpenComment isCause.2
        exact ⟨.inr ⟨isStray, notCause⟩,
          iff_of_false (unexpectedCharacters_message_ne piece) notCause, iff_of_true rfl isStray⟩

/-- A literal breaks off at a backslash before a line feed. -/
theorem broken_literal_is_stray :
    let source := "x /*é*/ \"é\\\n\"".toList
    lex source = .error ⟨.unexpectedCharacters ['"', 'é'], ⟨9, 12⟩⟩ ∧
      ∃ before after, Cut source ⟨9, 12⟩ before ['"', 'é'] after ∧
        (∃ lexemes, lex before = .ok lexemes) ∧ IsStray after ['"', 'é'] := by
  intro source
  have fails : lex source = .error ⟨.unexpectedCharacters ['"', 'é'], ⟨9, 12⟩⟩ := by
    decide +kernel
  rcases lex_stops_at_open_comment_or_stray fails with
    ⟨before, piece, after, cut, isLexed, _, _, _, _, message⟩
  have isPiece : piece = ['"', 'é'] := cut.slice_eq.symm.trans (by decide +kernel)
  subst isPiece
  exact ⟨fails, before, after, cut, isLexed, message.1 rfl⟩

/-- The star that opens a comment does not close it. -/
example : lex "a/*/".toList = .error ⟨.unterminatedComment, ⟨1, 4⟩⟩ := by decide +kernel

end TarnBuild
