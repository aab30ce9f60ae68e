import TarnBuild.Proofs.Token.Scan

/-!
# Scans find the longest token

Where a word of a token stands, a scan takes this word or a longer one, unless
the word is a slash that opens a comment.  As what it takes has the right form,
a scan takes exactly the tokens that stand at a place.
-/

namespace TarnBuild

open Computability

namespace Scan

/-! ## A scan takes no less than a word that stands there -/

/-- What a scan may take where a word of a token stands with more after it: the
word as that token or a longer word, unless the word is a slash and more after
it opens a comment. -/
def Reaches (token : Token) (word more : List Char) : Scan → Prop
  | .token found piece _ => word.length ≤ piece.length ∧ (piece = word → found = token)
  | .gap _ _ | .openComment => ∃ mark, ['/', mark] ∈ commentOpenings ∧ word = ['/'] ∧
      [mark] <+: more
  | .stray _ => False

/-- A name is scanned as far as its characters go, and perhaps further. -/
theorem reaches_name
    {make : String → Token} {first : Char} {rest : List Char}
    (parts : ∀ character ∈ rest, isNamePart character) (more : List Char) :
    (name make first (rest ++ more)).Reaches (make (String.ofList (first :: rest)))
      (first :: rest) more := by
  unfold name
  rw [List.takeWhile_append_of_pos parts]
  refine ⟨by simp, ?_⟩
  intro same
  rw [same]

theorem reaches_number_integer
    {first : Char} {rest : List Char}
    (digits : ∀ character ∈ rest, isDigit character) (more : List Char) :
    (number first (rest ++ more)).Reaches .integerLiteral (first :: rest) more := by
  unfold number
  dsimp only
  rw [List.takeWhile_append_of_pos digits]
  split
  · next start after _ =>
      split
      · refine ⟨by simp, ?_⟩
        -- The point would be one of the digits.
        intro same
        have isIn : '.' ∈ rest := by
          have tails := (List.cons.inj same).2
          rw [← tails]
          simp
        exact absurd (digits _ isIn) (by decide)
      · exact ⟨by simp, fun _ => rfl⟩
  · exact ⟨by simp, fun _ => rfl⟩

/-- Both digit runs of a number may go on in what follows. -/
theorem reaches_number_float
    {first next : Char} {rest others : List Char}
    (digits : ∀ character ∈ rest, isDigit character)
    (nextIsDigit : isDigit next)
    (otherDigits : ∀ character ∈ others, isDigit character) (more : List Char) :
    (number first (rest ++ '.' :: next :: (others ++ more))).Reaches .floatLiteral
      (first :: rest ++ '.' :: next :: others) more := by
  have whole : (rest ++ '.' :: next :: (others ++ more)).takeWhile isDigit = rest := by
    rw [List.takeWhile_append_of_pos digits, List.takeWhile_cons_of_neg (by decide),
      List.append_nil]
  have fraction : (rest ++ '.' :: next :: (others ++ more)).dropWhile isDigit =
      '.' :: next :: (others ++ more) := by
    rw [List.dropWhile_append_of_pos digits, List.dropWhile_cons_of_neg (by decide)]
  simp only [number, whole, fraction, nextIsDigit, if_true]
  rw [List.takeWhile_append_of_pos otherDigits]
  exact ⟨by simp, fun _ => rfl⟩

/-- The items of a string end at the first quotation mark that is not one of
them. -/
theorem splitItems_append_quote
    {items : List Char}
    (areItems : items ∈ (Pattern.quotedItem '"')∗) (more : List Char) :
    splitItems (items ++ '"' :: more) = (items, '"' :: more) := by
  rcases Language.mem_kstar.1 areItems with ⟨pieces, rfl, arePieces⟩
  clear areItems
  induction pieces with
  | nil => simp [splitItems]
  | cons piece pieces ih =>
      rcases List.forall_mem_cons.1 arePieces with ⟨isItem, othersAreItems⟩
      have others := ih othersAreItems
      rcases Pattern.mem_quotedItem_iff.1 isItem with
        ⟨plain, notQuote, notBackslash, rfl⟩ | ⟨escaped, notFeed, rfl⟩
      · simp [splitItems, notBackslash, others]
      · simp [splitItems, notFeed, others]

theorem string_append
    {items : List Char}
    (areItems : items ∈ (Pattern.quotedItem '"')∗) (more : List Char) :
    string (items ++ '"' :: more) =
      .token .stringLiteral ('"' :: (items ++ ['"'])) more := by
  simp [string, splitItems_append_quote areItems]

theorem character_append
    {item : List Char}
    (isItem : item ∈ Pattern.quotedItem '\'') (more : List Char) :
    character (item ++ '\'' :: more) =
      .token .charLiteral ('\'' :: (item ++ ['\''])) more := by
  rcases Pattern.mem_quotedItem_iff.1 isItem with
    ⟨plain, notQuote, notBackslash, rfl⟩ | ⟨escaped, notFeed, rfl⟩
  · simp [character, notQuote, notBackslash]
  · simp [character, notFeed]

/-- A mark ends where it ends, whatever follows. -/
theorem start_of_mark (mark : Mark) {first : Char} {rest : List Char}
    (isWritten : mark.text = first :: rest) (more : List Char) :
    start first (rest ++ more) = .token (.mark mark) (first :: rest) more := by
  cases mark <;> cases isWritten <;> rfl

theorem reaches_mark (mark : Mark) {first : Char} {rest : List Char}
    (isWritten : mark.text = first :: rest) (more : List Char) :
    (start first (rest ++ more)).Reaches (.mark mark) (first :: rest) more := by
  rw [start_of_mark mark isWritten]
  exact ⟨Nat.le_refl _, fun _ => rfl⟩

theorem reaches_symbol {character : Char} (isSymbol : isSymbol character)
    (more : List Char) :
    (start character more).Reaches .symbol [character] more := by
  have exact (alone : start character more = .token .symbol [character] more) :
      (start character more).Reaches .symbol [character] more := by
    rw [alone]
    exact ⟨Nat.le_refl _, fun _ => rfl⟩
  simp only [TarnBuild.isSymbol, List.contains_eq_mem, List.mem_cons, List.not_mem_nil, or_false,
    decide_eq_true_eq] at isSymbol
  rcases isSymbol with rfl | rfl | rfl | rfl | rfl | rfl | rfl | rfl | rfl | rfl | rfl | rfl |
    rfl | rfl
  case inr.inl =>
    show (hyphen more).Reaches _ _ _
    unfold hyphen
    split
    · exact ⟨by simp, by simp⟩
    · exact ⟨Nat.le_refl _, fun _ => rfl⟩
  case inr.inr.inr.inl =>
    show (slash more).Reaches _ _ _
    unfold slash
    split
    · exact ⟨'/', .inl rfl, rfl, by simp⟩
    · split
      · exact ⟨'*', .inr rfl, rfl, by simp⟩
      · exact ⟨'*', .inr rfl, rfl, by simp⟩
    · exact ⟨Nat.le_refl _, fun _ => rfl⟩
  all_goals exact exact rfl

/-- A word that can be a name is scanned as a whole, reserved or not. -/
theorem reaches_word {first : Char} {rest : List Char}
    (isName : first :: rest ∈ Pattern.name isLowerStart) (more : List Char) :
    (start first (rest ++ more)).Reaches (wordToken (String.ofList (first :: rest)))
      (first :: rest) more := by
  rcases Pattern.cons_mem_name_iff.1 isName with ⟨isStart, parts⟩
  rw [start_of_isLowerStart isStart]
  exact reaches_name parts more

theorem keyword_mem_name (keyword : Keyword) :
    keyword.word.toList ∈ Pattern.name isLowerStart := by
  cases keyword <;> exact Pattern.cons_mem_name_iff.2 ⟨rfl, List.all_eq_true.1 rfl⟩

theorem primitive_mem_name (type : Primitive) :
    type.word.toList ∈ Pattern.name isLowerStart := by
  cases type <;> exact Pattern.cons_mem_name_iff.2 ⟨rfl, List.all_eq_true.1 rfl⟩

/-- Where a word of a token stands, a scan takes it or more. -/
theorem reaches_start
    {token : Token} {first : Char} {rest : List Char}
    (isWritten : first :: rest ∈ token.pattern) (more : List Char) :
    (start first (rest ++ more)).Reaches token (first :: rest) more := by
  cases token with
  | keyword word =>
      have isName := keyword_mem_name word
      have reaches := wordToken_keyword word
      rw [← String.ofList_toList (s := word.word)] at reaches
      rw [← isWritten] at isName reaches
      exact reaches ▸ reaches_word isName more
  | primitive type =>
      have isName := primitive_mem_name type
      have reaches := wordToken_primitive type
      rw [← String.ofList_toList (s := type.word)] at reaches
      rw [← isWritten] at isName reaches
      exact reaches ▸ reaches_word isName more
  | mark sign => exact reaches_mark sign isWritten.symm more
  | symbol =>
      rcases isWritten with ⟨character, isSymbol, same⟩
      rcases List.cons.inj same with ⟨rfl, rfl⟩
      exact reaches_symbol isSymbol more
  | integerLiteral =>
      rcases Pattern.cons_mem_integer_iff.1 isWritten with ⟨isDigit, digits⟩
      rw [start_of_isDigit isDigit]
      exact reaches_number_integer digits more
  | floatLiteral =>
      rcases Pattern.cons_mem_float_iff.1 isWritten with
        ⟨isDigit, digits, next, others, areDigits, nextIsDigit, othersAreDigits, rfl⟩
      rw [start_of_isDigit isDigit, List.append_assoc, List.cons_append, List.cons_append]
      exact reaches_number_float areDigits nextIsDigit othersAreDigits more
  | stringLiteral =>
      rcases Pattern.mem_quoted_iff.1 isWritten with ⟨items, areItems, same⟩
      rcases List.cons.inj same with ⟨rfl, rfl⟩
      have exact := string_append areItems more
      rw [List.append_assoc, List.singleton_append]
      show (string _).Reaches _ _ _
      rw [exact]
      exact ⟨Nat.le_refl _, fun _ => rfl⟩
  | charLiteral =>
      rcases Pattern.mem_quoted_iff.1 isWritten with ⟨item, isItem, same⟩
      rcases List.cons.inj same with ⟨rfl, rfl⟩
      have exact := character_append isItem more
      rw [List.append_assoc, List.singleton_append]
      show (character _).Reaches _ _ _
      rw [exact]
      exact ⟨Nat.le_refl _, fun _ => rfl⟩
  | upper name =>
      rcases isWritten with ⟨isName, rfl⟩
      rcases Pattern.cons_mem_name_iff.1 isName with ⟨isStart, parts⟩
      rw [start_of_isUpperStart isStart]
      exact reaches_name parts more
  | lower name =>
      rcases isWritten with ⟨isName, rfl, notReserved⟩
      rw [← wordToken_of_not_isReserved notReserved]
      exact reaches_word isName more

end Scan

/-! ## Scans and tokens -/

/-- No token is written without a character. -/
theorem pattern_ne_nil {token : Token} {word : List Char} (isWritten : word ∈ token.pattern) :
    word ≠ [] := by
  rintro rfl
  cases token with
  | keyword word => cases word <;> exact absurd isWritten.symm (by decide)
  | primitive type => cases type <;> exact absurd isWritten.symm (by decide)
  | mark sign => cases sign <;> exact absurd isWritten.symm (by decide)
  | symbol =>
      rcases isWritten with ⟨_, _, same⟩
      cases same
  | integerLiteral => exact nil_notMem_charClass_mul isWritten
  | floatLiteral =>
      rcases Pattern.mem_float_iff.1 isWritten with ⟨whole, _, fraction, _, same⟩
      simp at same
  | stringLiteral =>
      rcases Pattern.mem_quoted_iff.1 isWritten with ⟨_, _, same⟩
      cases same
  | charLiteral =>
      rcases Pattern.mem_quoted_iff.1 isWritten with ⟨_, _, same⟩
      cases same
  | upper name => exact nil_notMem_charClass_mul isWritten.1
  | lower name => exact nil_notMem_charClass_mul isWritten.1

/-- What a scan takes as a token is a token. -/
theorem isToken_of_start
    {first : Char} {rest piece after : List Char} {token : Token}
    (scan : Scan.start first rest = .token token piece after) :
    IsToken token piece after := by
  have fits := Scan.fits_start first rest
  have splits := Scan.splits_start first rest
  rw [scan] at fits splits
  rcases splits with ⟨_, whole⟩
  refine ⟨fits, fun longer isPrefix isLonger => ⟨fun other isWritten => ?_, ?_⟩⟩
  · rw [whole] at isPrefix
    cases longer with
    | nil => simp at isLonger
    | cons head tail =>
        rcases List.cons_prefix_cons.1 isPrefix with ⟨rfl, more, rfl⟩
        have reaches := Scan.reaches_start isWritten more
        rw [scan] at reaches
        exact absurd reaches.1 (by omega)
  · rw [whole] at isPrefix
    rintro (rfl | rfl)
    · rcases List.cons_prefix_cons.1 isPrefix with ⟨rfl, more, rfl⟩
      cases scan
    · rcases List.cons_prefix_cons.1 isPrefix with ⟨rfl, more, rfl⟩
      have same : Scan.slash ('*' :: more) = .token token piece after := scan
      simp only [Scan.slash] at same
      split at same <;> cases same

/-- A token that stands at a place is taken by a scan. -/
theorem start_of_isToken
    {first : Char} {rest after : List Char} {token : Token}
    (isToken : IsToken token (first :: rest) after) :
    Scan.start first (rest ++ after) = .token token (first :: rest) after := by
  have reaches := Scan.reaches_start isToken.isWritten after
  have fits := Scan.fits_start first (rest ++ after)
  have splits := Scan.splits_start first (rest ++ after)
  -- A comment that opens here would be longer than the token.
  have notOpened : ¬ ∃ mark, ['/', mark] ∈ commentOpenings ∧ first :: rest = ['/'] ∧
      [mark] <+: after := by
    rintro ⟨mark, isOpening, isSlash, next⟩
    have isPrefix : ['/', mark] <+: first :: rest ++ after := by
      rw [isSlash]
      simpa using next
    exact (isToken.longest _ isPrefix (by simp [isSlash])).2 isOpening
  cases scan : Scan.start first (rest ++ after) with
  | gap skipped others =>
      rw [scan] at reaches
      exact (notOpened reaches).elim
  | openComment =>
      rw [scan] at reaches
      exact (notOpened reaches).elim
  | stray characters =>
      rw [scan] at reaches
      exact reaches.elim
  | token found piece others =>
      rw [scan] at reaches fits splits
      rcases splits with ⟨_, whole⟩
      rw [← List.cons_append] at whole
      have isPrefix : piece <+: first :: rest ++ after := ⟨others, whole⟩
      have sameLength : (first :: rest).length = piece.length := by
        by_contra different
        have isLonger : (first :: rest).length < piece.length := by
          have notShorter := reaches.1
          omega
        exact (isToken.longest piece isPrefix isLonger).1 found fits
      rcases List.append_inj whole sameLength.symm with ⟨rfl, rfl⟩
      rw [reaches.2 rfl]

end TarnBuild
