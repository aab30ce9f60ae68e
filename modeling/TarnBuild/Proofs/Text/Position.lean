import Mathlib.Data.List.TakeWhile
import Mathlib.Data.Prod.Lex
import TarnBuild.Proofs.Text.Offset
import TarnBuild.Source.Fault

/-!
# Lines and columns

The position of an offset is computed from the text before it: from its line
feeds and from the characters after the last of them.  Going through the lines of
the whole text leads back from the position to the same offset.  So positions are
ordered as offsets are, line first.
-/

namespace TarnBuild.Text

/-! ## From a position to its offset -/

/-- The pieces of a text between its line feeds. -/
def lines (text : List Char) : List (List Char) :=
  text.splitOn '\n'

/-- The text before a position: the lines above it, each with its line feed, and
the characters to the left of it in its own line. -/
def before? (text : List Char) : Position → Option (List Char)
  | ⟨above + 1, left + 1⟩ =>
      (lines text)[above]?.bind fun line =>
        if left ≤ line.length then
          some (((lines text).take above).flatMap (· ++ ['\n']) ++ line.take left)
        else
          none
  | _ => none

/-- The offset at a position, if the text has such a line and column. -/
def offsetAt? (text : List Char) (position : Position) : Option Nat :=
  (before? text position).map byteLength

theorem lines_lineFeed_cons (text : List Char) : lines ('\n' :: text) = [] :: lines text := by
  simp [lines, List.splitOn_cons_eq_if_modifyHead]

theorem lines_cons_of_ne {character : Char} (notFeed : character ≠ '\n') (text : List Char) :
    lines (character :: text) = (lines text).modifyHead (character :: ·) := by
  rw [lines, List.splitOn_cons_eq_if_modifyHead, if_neg (by simpa using notFeed)]
  rfl

theorem exists_lines_eq_cons (text : List Char) :
    ∃ line others, lines text = line :: others :=
  List.exists_cons_of_ne_nil (List.splitOn_ne_nil '\n' text)

/-- A line feed at the front puts everything one line down. -/
theorem before?_lineFeed_cons (text : List Char) (above column : Nat) :
    before? ('\n' :: text) ⟨above + 2, column⟩ =
      (before? text ⟨above + 1, column⟩).map ('\n' :: ·) := by
  cases column with
  | zero => rfl
  | succ left =>
      simp only [before?, lines_lineFeed_cons, List.getElem?_cons_succ, List.take_succ_cons]
      cases (lines text)[above]? with
      | none => rfl
      | some line =>
          dsimp only [Option.bind_some]
          split <;> simp

/-- Another character at the front moves the first line to the right. -/
theorem before?_cons_of_first_line
    {character : Char} (notFeed : character ≠ '\n') (text : List Char) (left : Nat) :
    before? (character :: text) ⟨1, left + 2⟩ =
      (before? text ⟨1, left + 1⟩).map (character :: ·) := by
  rcases exists_lines_eq_cons text with ⟨line, others, same⟩
  simp only [before?, lines_cons_of_ne notFeed, same]
  by_cases isWithin : left ≤ line.length <;> simp [isWithin]

/-- Such a character leaves the positions of the other lines alone. -/
theorem before?_cons_of_later_line
    {character : Char} (notFeed : character ≠ '\n') (text : List Char) (above column : Nat) :
    before? (character :: text) ⟨above + 2, column⟩ =
      (before? text ⟨above + 2, column⟩).map (character :: ·) := by
  cases column with
  | zero => rfl
  | succ left =>
      rcases exists_lines_eq_cons text with ⟨first, others, same⟩
      simp only [before?, lines_cons_of_ne notFeed, same, List.modifyHead_cons,
        List.getElem?_cons_succ, List.take_succ_cons]
      cases others[above]? with
      | none => rfl
      | some line => by_cases isWithin : left ≤ line.length <;> simp [isWithin]

/-! ## From an offset to its position -/

namespace Position

/-- A piece without line feeds only moves the position to the right. -/
theorem after_append_of_notMem
    (before : List Char) {piece : List Char} (sameLine : '\n' ∉ piece) :
    after (before ++ piece) = ⟨(after before).line, (after before).column + piece.length⟩ := by
  have inLine : ∀ character ∈ piece.reverse, (character != '\n') = true := by
    intro character isIn
    rw [bne_iff_ne]
    rintro rfl
    exact sameLine (List.mem_reverse.1 isIn)
  simp only [after, List.count_append, List.count_eq_zero.2 sameLine, List.reverse_append,
    List.takeWhile_append_of_pos inLine, List.length_append, List.length_reverse, mk.injEq,
    true_and]
  omega

/-- On the first line the column counts all characters. -/
theorem after_of_notMem {before : List Char} (isFirst : '\n' ∉ before) :
    after before = ⟨1, before.length + 1⟩ := by
  rw [← List.nil_append before, after_append_of_notMem [] isFirst, Nat.add_comm]
  rfl

/-- What stands before the last line feed counts for the line only. -/
theorem after_append_of_mem
    (before : List Char) {piece : List Char} (isIn : '\n' ∈ piece) :
    after (before ++ piece) = ⟨before.count '\n' + (after piece).line, (after piece).column⟩ := by
  have stops : (piece.reverse.takeWhile (· != '\n')).length ≠ piece.reverse.length := by
    intro sameLength
    have whole := (List.takeWhile_prefix (· != '\n')).eq_of_length sameLength
    have inLine := List.takeWhile_eq_self_iff.1 whole '\n' (List.mem_reverse.2 isIn)
    exact absurd inLine (by decide)
  simp only [after, List.count_append, List.reverse_append, List.takeWhile_append, if_neg stops,
    Nat.add_assoc]

theorem one_lt_line_of_mem {before : List Char} (isIn : '\n' ∈ before) :
    1 < (after before).line :=
  Nat.succ_lt_succ (List.count_pos_iff.2 isIn)

theorem after_lineFeed_cons (before : List Char) :
    after ('\n' :: before) = ⟨(after before).line + 1, (after before).column⟩ := by
  rw [← List.singleton_append]
  by_cases isIn : '\n' ∈ before
  · rw [after_append_of_mem _ isIn, Nat.add_comm]
    rfl
  · rw [after_append_of_notMem _ isIn, after_of_notMem isIn, Nat.add_comm before.length]
    rfl

end Position

/-- Going to the position after a front of the text leads back to this front. -/
theorem before?_after (before rest : List Char) :
    before? (before ++ rest) (Position.after before) = some before := by
  induction before with
  | nil =>
      rcases exists_lines_eq_cons rest with ⟨line, others, same⟩
      simp [Position.after, before?, same]
  | cons character before ih =>
      by_cases isFeed : character = '\n'
      · subst isFeed
        rw [Position.after_lineFeed_cons, List.cons_append]
        exact (before?_lineFeed_cons _ _ _).trans (congrArg (Option.map ('\n' :: ·)) ih)
      · by_cases isFirst : '\n' ∈ before
        · have line := Position.one_lt_line_of_mem isFirst
          have same : Position.after (character :: before) = Position.after before := by
            rw [← List.singleton_append, Position.after_append_of_mem _ isFirst,
              List.count_eq_zero.2 (by simpa using Ne.symm isFeed), Nat.zero_add]
          rw [same, List.cons_append]
          generalize Position.after before = position at ih line
          rcases position with ⟨_ | _ | above, column⟩
          · exact (Nat.not_lt_zero _ line).elim
          · exact (Nat.lt_irrefl _ line).elim
          · exact (before?_cons_of_later_line isFeed _ _ _).trans (congrArg (Option.map _) ih)
        · have notIn : '\n' ∉ character :: before := by simp [isFirst, Ne.symm isFeed]
          rw [Position.after_of_notMem isFirst] at ih
          rw [Position.after_of_notMem notIn, List.cons_append]
          exact (before?_cons_of_first_line isFeed _ _).trans (congrArg (Option.map _) ih)

/-! ## Offsets and positions -/

theorem position?_byteLength (before rest : List Char) :
    position? (before ++ rest) (byteLength before) = some (Position.after before) := by
  rw [position?, prefixTo?_append]
  rfl

/-- Of two positions in a text the one further on is greater, line first. -/
theorem Position.after_lt_after_append
    (before : List Char) {piece : List Char} (nonempty : piece ≠ []) :
    toLex ((after before).line, (after before).column) <
      toLex ((after (before ++ piece)).line, (after (before ++ piece)).column) := by
  rw [Prod.Lex.toLex_lt_toLex]
  by_cases isIn : '\n' ∈ piece
  · left
    have line := Position.one_lt_line_of_mem isIn
    rw [Position.after_append_of_mem before isIn]
    show before.count '\n' + 1 < before.count '\n' + (after piece).line
    omega
  · right
    rw [Position.after_append_of_notMem before isIn]
    exact ⟨rfl, Nat.lt_add_of_pos_right (List.length_pos_iff.2 nonempty)⟩

/-- Where a message starts between two characters, its line and column lead back
to the same offset, and they grow with the offset, line first.  A message that
starts beyond the end is shown at the end. -/
theorem offsetAt?_position_and_position_lt (source : List Char) :
    (∀ diagnostic : Diagnostic, IsBoundary source diagnostic.span.start →
      ∃ position, diagnostic.position? source = some position ∧
        offsetAt? source position = some diagnostic.span.start) ∧
    (∀ first second : Diagnostic, IsBoundary source first.span.start →
      IsBoundary source second.span.start → first.span.start < second.span.start →
      ∃ position other, first.position? source = some position ∧
        second.position? source = some other ∧
        toLex (position.line, position.column) < toLex (other.line, other.column)) ∧
    ∀ beyond atEnd : Diagnostic, byteLength source ≤ beyond.span.start →
      atEnd.span.start = byteLength source →
      beyond.position? source = atEnd.position? source := by
  refine ⟨?_, ?_, ?_⟩
  · rintro diagnostic ⟨before, rest, rfl, start_eq⟩
    refine ⟨.after before, ?_, ?_⟩
    · rw [Diagnostic.position?, start_eq, position?_byteLength]
    · rw [offsetAt?, before?_after, start_eq]
      rfl
  · rintro first second ⟨before, rest, rfl, first_eq⟩ ⟨other, otherRest, same, second_eq⟩ isLess
    rw [first_eq, second_eq] at isLess
    refine ⟨.after before, .after other, ?_, ?_, ?_⟩
    · rw [Diagnostic.position?, first_eq, position?_byteLength]
    · rw [Diagnostic.position?, second_eq, same, position?_byteLength]
    · rcases List.append_eq_append_iff.1 same with ⟨piece, rfl, _⟩ | ⟨piece, rfl, _⟩
      · refine Position.after_lt_after_append before ?_
        rintro rfl
        simp at isLess
      · rw [byteLength_append] at isLess
        omega
  · intro beyond atEnd isBeyond isEnd
    rw [Diagnostic.position?, Diagnostic.position?, position?, position?,
      prefixTo?_of_byteLength_le isBeyond, prefixTo?_of_byteLength_le isEnd.ge]

/-- The offset after the second of two line feeds, behind a character of two bytes,
is the start of the third line. -/
theorem empty_line_offsetAt? :
    let source := "é\r\n\nb".toList
    let atReturn : Diagnostic := ⟨"", ⟨2, 3⟩⟩
    let behindFeeds : Diagnostic := ⟨"", ⟨5, 6⟩⟩
    let atEnd : Diagnostic := ⟨"", ⟨6, 6⟩⟩
    let beyond : Diagnostic := ⟨"", ⟨9, 9⟩⟩
    (∃ position, behindFeeds.position? source = some position ∧ position = ⟨3, 1⟩ ∧
        offsetAt? source position = some 5) ∧
      (∃ position other, atReturn.position? source = some position ∧
        behindFeeds.position? source = some other ∧
        toLex (position.line, position.column) < toLex (other.line, other.column)) ∧
      beyond.position? source = atEnd.position? source := by
  intro source atReturn behindFeeds atEnd beyond
  have isBoundary : IsBoundary source 5 := ⟨"é\r\n\n".toList, ['b'], by decide, by decide⟩
  have isFirstBoundary : IsBoundary source 2 := ⟨['é'], "\r\n\nb".toList, by decide, by decide⟩
  rcases offsetAt?_position_and_position_lt source with ⟨leadsBack, grows, staysAtEnd⟩
  refine ⟨?_, ?_, ?_⟩
  · rcases leadsBack behindFeeds isBoundary with ⟨position, found, same⟩
    have isThird : behindFeeds.position? source = some ⟨3, 1⟩ := by decide
    exact ⟨position, found, Option.some.inj (found.symm.trans isThird), same⟩
  · exact grows atReturn behindFeeds isFirstBoundary isBoundary (by decide)
  · exact staysAtEnd beyond atEnd (by decide) (by decide)

end TarnBuild.Text
