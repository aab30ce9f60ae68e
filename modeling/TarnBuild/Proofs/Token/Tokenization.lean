import TarnBuild.Proofs.Text.Offset
import TarnBuild.Proofs.Token.Longest

/-!
# Lexemes are the tokenization of a source

Reading a source from left to right finds its tokenization, and there is no
other one.  A source that cannot be read has none.

The tokenization is first said from left to right, too: a gap, a token, and
then the tokenization of what is left.
-/

namespace TarnBuild

open Text (Span byteLength)

/-- Lexemes cut a text that starts at an offset into gaps and tokens. -/
inductive TokenizedFrom : Nat → List Char → List Lexeme → Prop where
  | gap (offset : Nat) (gap : List Char) (isGap : IsGap [] gap) :
      TokenizedFrom offset gap []
  | token (offset : Nat) (gap piece rest : List Char) (token : Token)
      (lexemes : List Lexeme) (isGap : IsGap (piece ++ rest) gap)
      (isToken : IsToken token piece rest)
      (others : TokenizedFrom (offset + byteLength gap + byteLength piece) rest lexemes) :
      TokenizedFrom offset (gap ++ (piece ++ rest))
        (⟨token, ⟨offset + byteLength gap, offset + byteLength gap + byteLength piece⟩⟩ ::
          lexemes)

/-! ## Reading a gap -/

/-- A gap is passed over, and only the offset shows it. -/
theorem lexFrom_of_gap
    {offset : Nat} {first : Char} {rest skipped after : List Char}
    (scan : Scan.start first rest = .gap skipped after) :
    lexFrom offset (first :: rest) = lexFrom (offset + byteLength skipped) after := by
  rw [lexFrom]
  split <;> simp_all

/-- A token takes its place in front of what is read after it. -/
theorem lexFrom_of_token
    {offset : Nat} {first : Char} {rest piece after : List Char} {token : Token}
    (scan : Scan.start first rest = .token token piece after) :
    lexFrom offset (first :: rest) =
      (lexFrom (offset + byteLength piece) after).map
        (⟨token, ⟨offset, offset + byteLength piece⟩⟩ :: ·) := by
  rw [lexFrom]
  split
  · simp_all
  · next found =>
      rw [scan] at found
      cases found
      dsimp only
      cases lexFrom (offset + byteLength piece) after <;> rfl
  · simp_all
  · simp_all

theorem lexFrom_of_openComment
    {offset : Nat} {first : Char} {rest : List Char}
    (scan : Scan.start first rest = .openComment) :
    lexFrom offset (first :: rest) =
      .error ⟨.unterminatedComment, ⟨offset, offset + byteLength (first :: rest)⟩⟩ := by
  rw [lexFrom]
  split <;> simp_all

theorem lexFrom_of_stray
    {offset : Nat} {first : Char} {rest characters : List Char}
    (scan : Scan.start first rest = .stray characters) :
    lexFrom offset (first :: rest) =
      .error ⟨.unexpectedCharacters characters, ⟨offset, offset + byteLength characters⟩⟩ := by
  rw [lexFrom]
  split <;> simp_all

/-- Layout characters are passed over one by one. -/
theorem lexFrom_layout_append
    {run : List Char}
    (isLayout : ∀ character ∈ run, isLayout character)
    (offset : Nat) (after : List Char) :
    lexFrom offset (run ++ after) = lexFrom (offset + byteLength run) after := by
  induction run generalizing offset with
  | nil => rfl
  | cons character run ih =>
      rcases List.forall_mem_cons.1 isLayout with ⟨isFirst, areOthers⟩
      have scan : Scan.start character (run ++ after) = .gap [character] (run ++ after) := by
        simp [Scan.start, isFirst]
      rw [List.cons_append, lexFrom_of_gap scan, ih areOthers]
      simp [Nat.add_assoc]

/-- A comment ends where its closing mark first occurs. -/
theorem splitComment?_append
    {body : List Char}
    (first : ¬ ['*', '/'] <:+: body ++ ['*']) (after : List Char) :
    splitComment? (body ++ '*' :: '/' :: after) = some (body ++ ['*', '/'], after) := by
  induction body with
  | nil => rfl
  | cons character body ih =>
      rw [List.cons_append, List.infix_cons_iff, not_or] at first
      have notClosing : ∀ rest, character = '*' →
          body ++ '*' :: '/' :: after = '/' :: rest → False := by
        rintro rest rfl starts
        cases body with
        | nil => cases starts
        | cons next body =>
            rcases List.cons.inj starts with ⟨rfl, _⟩
            exact first.1 (by simp)
      rw [List.cons_append, splitComment?.eq_3 _ _ notClosing, ih first.2]
      rfl

theorem lexFrom_trivium_append
    {piece after : List Char}
    (isTrivium : IsTrivium after piece) (offset : Nat) :
    lexFrom offset (piece ++ after) = lexFrom (offset + byteLength piece) after := by
  cases isTrivium with
  | layout _ _ isLayout => exact lexFrom_layout_append isLayout offset after
  | line body inLine ends =>
      have inBody : ∀ character ∈ body, (character != '\n') = true := by
        intro character isIn
        rw [bne_iff_ne]
        rintro rfl
        exact inLine isIn
      have atEnd : after.takeWhile (· != '\n') = [] ∧ after.dropWhile (· != '\n') = after := by
        cases after with
        | nil => simp
        | cons character rest => simp [ends character rfl]
      have scan : Scan.start '/' ('/' :: (body ++ after)) =
          .gap ('/' :: '/' :: body) after := by
        rw [Scan.start_slash, Scan.slash, List.takeWhile_append_of_pos inBody,
          List.dropWhile_append_of_pos inBody, atEnd.1, atEnd.2, List.append_nil]
      exact lexFrom_of_gap scan
  | block body first =>
      have scan : Scan.start '/' ('*' :: (body ++ ['*', '/'] ++ after)) =
          .gap ('/' :: '*' :: (body ++ ['*', '/'])) after := by
        have split := splitComment?_append first after
        simp [Scan.start_slash, Scan.slash, split]
      exact lexFrom_of_gap scan

theorem lexFrom_gap_append
    {gap after : List Char}
    (isGap : IsGap after gap) (offset : Nat) :
    lexFrom offset (gap ++ after) = lexFrom (offset + byteLength gap) after := by
  induction isGap generalizing offset with
  | nil => rfl
  | cons first rest isTrivium _ ih =>
      rw [List.append_assoc, lexFrom_trivium_append isTrivium, ih]
      simp [Nat.add_assoc]

/-! ## Reading from left to right -/

theorem TokenizedFrom.cons_gap
    {offset : Nat} {first text : List Char} {lexemes : List Lexeme}
    (isTrivium : IsTrivium text first)
    (tokenized : TokenizedFrom (offset + byteLength first) text lexemes) :
    TokenizedFrom offset (first ++ text) lexemes := by
  generalize start : offset + byteLength first = next at tokenized
  cases tokenized with
  | gap _ gap isGap =>
      exact .gap offset _ (.cons first text (by simpa using isTrivium) isGap)
  | token _ gap piece rest token lexemes isGap isToken others =>
      subst start
      have wider : IsGap (piece ++ rest) (first ++ gap) := .cons first gap isTrivium isGap
      rw [← List.append_assoc]
      have tokenized := TokenizedFrom.token offset (first ++ gap) piece rest token lexemes wider
        isToken (by simpa [Nat.add_assoc] using others)
      simpa [Nat.add_assoc] using tokenized

/-- Reading succeeds with the lexemes of a tokenization and with no others. -/
theorem lexFrom_eq_ok_iff
    {offset : Nat} {text : List Char} {lexemes : List Lexeme} :
    lexFrom offset text = .ok lexemes ↔ TokenizedFrom offset text lexemes := by
  constructor
  · intro read
    fun_induction lexFrom offset text generalizing lexemes with
    | case1 offset =>
        cases read
        exact .gap offset [] .nil
    | case2 offset first rest skipped after scan ih =>
        have fits := Scan.fits_start first rest
        have splits := Scan.splits_start first rest
        rw [scan] at fits splits
        rw [← splits.2]
        exact .cons_gap fits (ih read)
    | case3 offset first rest token piece after scan next others readOthers =>
        rename_i ih
        cases read
        have splits := Scan.splits_start first rest
        rw [scan] at splits
        rw [← splits.2]
        exact .token offset [] piece after token others .nil (isToken_of_start scan)
          (ih readOthers)
    | case4 => cases read
    | case5 => cases read
    | case6 => cases read
  · intro tokenized
    induction tokenized with
    | gap offset gap isGap =>
        have read := lexFrom_gap_append isGap offset
        rw [List.append_nil] at read
        rw [read, lexFrom]
    | token offset gap piece rest token lexemes isGap isToken _ ih =>
        rw [lexFrom_gap_append isGap]
        cases piece with
        | nil => exact (pattern_ne_nil isToken.isWritten rfl).elim
        | cons first others =>
            rw [List.cons_append, lexFrom_of_token (start_of_isToken isToken), ih]
            rfl

/-! ## Cutting at spans -/

/-- Two cuts of a source that start at the same offset leave the same text in
front of them. -/
theorem Cut.before_eq
    {source before piece after front text : List Char} {span : Span}
    (cut : Cut source span before piece after)
    (source_eq : source = front ++ text)
    (start_eq : span.start = byteLength front) :
    before = front ∧ text = piece ++ after := by
  have same : before ++ (piece ++ after) = front ++ text := by
    rw [← source_eq, cut.source_eq, List.append_assoc]
  have sameLength : byteLength before = byteLength front := by
    rw [← cut.start_eq, start_eq]
  rcases Text.append_inj_of_byteLength same sameLength with ⟨rfl, rfl⟩
  exact ⟨rfl, rfl⟩

namespace TokenizedFrom

variable {offset : Nat} {text : List Char} {lexemes : List Lexeme}

theorem le_start (tokenized : TokenizedFrom offset text lexemes) :
    ∀ lexeme ∈ lexemes, offset ≤ lexeme.span.start := by
  induction tokenized with
  | gap => nofun
  | token offset gap piece rest token lexemes _ _ _ ih =>
      refine List.forall_mem_cons.2 ⟨Nat.le_add_right _ _, ?_⟩
      intro lexeme isLater
      have later := ih lexeme isLater
      omega

theorem stop_le (tokenized : TokenizedFrom offset text lexemes) :
    ∀ lexeme ∈ lexemes, lexeme.span.stop ≤ offset + byteLength text := by
  induction tokenized with
  | gap => nofun
  | token offset gap piece rest token lexemes _ _ _ ih =>
      simp only [Text.byteLength_append]
      refine List.forall_mem_cons.2 ⟨by dsimp only; omega, ?_⟩
      intro lexeme isLater
      have later := ih lexeme isLater
      omega

theorem nonempty (tokenized : TokenizedFrom offset text lexemes) :
    ∀ lexeme ∈ lexemes, lexeme.span.start < lexeme.span.stop := by
  induction tokenized with
  | gap => nofun
  | token offset gap piece rest token lexemes _ isToken _ ih =>
      have positive := Text.byteLength_pos_iff.2 (pattern_ne_nil isToken.isWritten)
      exact List.forall_mem_cons.2 ⟨Nat.lt_add_of_pos_right positive, ih⟩

/-- Lexemes do not overlap, and come in the order of their places. -/
theorem increasing (tokenized : TokenizedFrom offset text lexemes) :
    lexemes.Pairwise fun first second => first.span.stop ≤ second.span.start := by
  induction tokenized with
  | gap => exact .nil
  | token offset gap piece rest token lexemes _ _ others ih =>
      exact .cons others.le_start ih

/-- Every lexeme covers a token of the whole source. -/
theorem tokens
    (tokenized : TokenizedFrom offset text lexemes) (front : List Char)
    (offset_eq : offset = byteLength front) :
    ∀ lexeme ∈ lexemes, ∃ before piece after,
      Cut (front ++ text) lexeme.span before piece after ∧
        IsToken lexeme.token piece after := by
  induction tokenized generalizing front with
  | gap => nofun
  | token offset gap piece rest token lexemes _ isToken _ ih =>
      refine List.forall_mem_cons.2 ⟨⟨front ++ gap, piece, rest, ?_, isToken⟩, ?_⟩
      · exact ⟨by simp, by simp [offset_eq], by simp [offset_eq, Nat.add_assoc]⟩
      · have others := ih (front ++ gap ++ piece) (by simp [offset_eq, Nat.add_assoc])
        simpa using others

/-- Between the lexemes of a text there are gaps of the whole source. -/
theorem gaps
    (tokenized : TokenizedFrom offset text lexemes) (front : List Char)
    (offset_eq : offset = byteLength front) :
    ∀ span ∈ gapSpans offset (byteLength (front ++ text)) lexemes, ∃ before gap after,
      Cut (front ++ text) span before gap after ∧ IsGap after gap := by
  induction tokenized generalizing front with
  | gap offset gap isGap =>
      refine List.forall_mem_singleton.2 ⟨front, gap, [], ?_, isGap⟩
      exact ⟨by simp, offset_eq, rfl⟩
  | token offset gap piece rest token lexemes isGap _ _ ih =>
      refine List.forall_mem_cons.2 ⟨⟨front, gap, piece ++ rest, ?_, isGap⟩, ?_⟩
      · exact ⟨by simp, offset_eq, by simp [offset_eq]⟩
      · have others := ih (front ++ gap ++ piece) (by simp [offset_eq, Nat.add_assoc])
        simpa using others

/-- Tokens and the gaps between them, cut out of a source at their spans, make
up the source from left to right. -/
theorem of_cuts
    (front : List Char)
    (tokens : ∀ lexeme ∈ lexemes, ∃ before piece after,
      Cut (front ++ text) lexeme.span before piece after ∧
        IsToken lexeme.token piece after)
    (gaps : ∀ span ∈ gapSpans (byteLength front) (byteLength (front ++ text)) lexemes,
      ∃ before gap after, Cut (front ++ text) span before gap after ∧ IsGap after gap) :
    TokenizedFrom (byteLength front) text lexemes := by
  induction lexemes generalizing front text with
  | nil =>
      rcases List.forall_mem_singleton.1 gaps with ⟨before, gap, after, cut, isGap⟩
      rcases cut.before_eq rfl rfl with ⟨rfl, rfl⟩
      have nothing : after = [] := by
        have stop_eq := cut.stop_eq
        simp only [Text.byteLength_append] at stop_eq
        exact Text.byteLength_eq_zero_iff.1 (by omega)
      subst nothing
      rw [List.append_nil]
      exact .gap _ gap isGap
  | cons lexeme lexemes ih =>
      rcases lexeme with ⟨token, start, stop⟩
      rcases List.forall_mem_cons.1 gaps with ⟨⟨before, gap, rest, gapCut, isGap⟩, otherGaps⟩
      rcases List.forall_mem_cons.1 tokens with
        ⟨⟨beforeToken, piece, after, tokenCut, isToken⟩, otherTokens⟩
      rcases gapCut.before_eq rfl rfl with ⟨rfl, rfl⟩
      rcases tokenCut.before_eq (List.append_assoc before gap rest).symm gapCut.stop_eq with
        ⟨rfl, rfl⟩
      have start_eq : start = byteLength before + byteLength gap := by
        simpa using tokenCut.start_eq
      have stop_eq : stop = byteLength before + byteLength gap + byteLength piece := by
        simpa [Nat.add_assoc] using tokenCut.stop_eq
      subst start_eq stop_eq
      have others : TokenizedFrom (byteLength (before ++ gap ++ piece)) after lexemes :=
        ih _ (by simpa using otherTokens) (by simpa [Nat.add_assoc] using otherGaps)
      exact .token _ gap piece after token lexemes isGap isToken
        (by simpa [Nat.add_assoc] using others)

end TokenizedFrom

/-- The lexemes that are read from a source are the one tokenization of it, and
a source from which none are read has no tokenization. -/
theorem lex_eq_ok_iff_isTokenization {source : List Char} {lexemes : List Lexeme} :
    lex source = .ok lexemes ↔ IsTokenization source lexemes := by
  rw [lex, lexFrom_eq_ok_iff]
  constructor
  · intro tokenized
    exact {
      nonempty := tokenized.nonempty
      increasing := tokenized.increasing
      tokens := tokenized.tokens [] rfl
      gaps := tokenized.gaps [] rfl }
  · intro isTokenization
    exact TokenizedFrom.of_cuts [] isTokenization.tokens isTokenization.gaps

end TarnBuild
