import Mathlib.Order.CompletePartialOrder
import TarnBuild.Proofs.Grammar.Tree
import TarnBuild.Proofs.Parser.Basic
import TarnBuild.Proofs.Token.Continuation

/-!
# What a failed parser has read

A parser explores a language of lexemes when whatever it passes over belongs
to it: all of a word when it ends with a value, and the front of a word when
it fails.  Tokens that can be written then complete what was read before the
failure.  A parser that goes too deep is not held to this, as there may be no
word within the nesting limit.

Sequences of parsers explore products of languages.  For this the second
language must have a word of its own, which completes what the first parser
has left open.
-/

namespace TarnBuild

open Text (Span)

/-! ## Languages of lexemes -/

/-- Some lexemes go on to a word of the language with tokens that can be
written. -/
def Completable (language : Language Lexeme) (read : List Lexeme) : Prop :=
  ∃ added, (∀ lexeme ∈ added, lexeme.token.IsWritable) ∧ read ++ added ∈ language

/-- The words of one lexeme with the given token. -/
def oneOf (token : Token) : Language Lexeme :=
  {word | ∃ place, word = [⟨token, place⟩]}

/-- The lexemes of all trees with a property. -/
def phrases {Tree : Type} (spell : Tree → List Lexeme) (fits : Tree → Prop) : Language Lexeme :=
  {word | ∃ tree, fits tree ∧ spell tree = word}

/-- The lists of trees with commas between them and a closing mark after them. -/
def commaLists {Tree : Type} (spell : Tree → List Lexeme) (fits : Tree → Prop) (close : Mark) :
    Language Lexeme :=
  phrases (CommaTree.lexemes spell close) fun list => ∀ tree ∈ list.items, fits tree

/-- The lists of trees with a closing parenthesis, which may stand alone. -/
def parenLists {Tree : Type} (spell : Tree → List Lexeme) (fits : Tree → Prop) :
    Language Lexeme :=
  phrases (ParenTree.lexemes spell) fun list => ∀ tree ∈ list.items, fits tree

namespace Completable

variable {first second : Language Lexeme} {front read : List Lexeme}

theorem of_mem (isWord : read ∈ first) : Completable first read :=
  ⟨[], nofun, by simpa using isWord⟩

/-- What completes to a word completes to a word of every larger language. -/
theorem mono (isPart : first ≤ second) (completable : Completable first read) :
    Completable second read := by
  rcases completable with ⟨added, areWritable, isWord⟩
  exact ⟨added, areWritable, isPart isWord⟩

/-- The front of a product is completed to a word of the first language, and a
word of the second one is put after it. -/
theorem mul
    (completable : Completable first read)
    (closing : Completable second []) :
    Completable (first * second) read := by
  rcases completable with ⟨added, areWritable, isWord⟩
  rcases closing with ⟨others, areOthersWritable, isOtherWord⟩
  refine ⟨added ++ others, List.forall_mem_append.2 ⟨areWritable, areOthersWritable⟩, ?_⟩
  rw [← List.append_assoc]
  exact Language.append_mem_mul isWord isOtherWord

theorem append
    (isWord : front ∈ first)
    (completable : Completable second read) :
    Completable (first * second) (front ++ read) := by
  rcases completable with ⟨added, areWritable, isOtherWord⟩
  refine ⟨added, areWritable, ?_⟩
  rw [List.append_assoc]
  exact Language.append_mem_mul isWord isOtherWord

theorem one : Completable 1 [] :=
  of_mem Language.nil_mem_one

theorem optional : Completable (first + 1) [] :=
  of_mem (.inr rfl)

theorem oneOf {token : Token} (isWritable : token.IsWritable) : Completable (oneOf token) [] :=
  ⟨[⟨token, ⟨0, 0⟩⟩], by simpa using isWritable, ⟨0, 0⟩, rfl⟩

end Completable

/-! ## Exploring a language -/

/-- What an outcome says about the lexemes between two cursors, where a
failure is only looked at under a condition on what was read. -/
inductive Follows {Value : Type} (given : List Lexeme → Prop) (language : Language Lexeme)
    (before : Cursor) : Outcome Value → Prop where
  | done (value : Value) (after : Cursor) (word : List Lexeme) (isWord : word ∈ language)
      (rest_eq : before.rest = word ++ after.rest) (depth_eq : after.depth = before.depth) :
      Follows given language before (.done value after)
  | failed (error : SourceError) (after : Cursor) (read : List Lexeme)
      (rest_eq : before.rest = read ++ after.rest)
      (completable : given read → Completable language read) :
      Follows given language before (.failed error after)
  | tooDeep (place : Span) (after : Cursor) :
      Follows given language before (.failed ⟨.nestingTooDeep, place⟩ after)

/-- At a depth the parser passes over words of the language, or over fronts of
its words when it fails. -/
def Explores {Value : Type} (context : ParseContext) (given : List Lexeme → Prop) (depth : Nat)
    (parser : Parser Value) (language : Language Lexeme) : Prop :=
  ∀ before, before.depth = depth → Follows given language before (parser context before)

/-- No condition on what was read. -/
abbrev Always : List Lexeme → Prop := fun _ => True

section Explores

variable {Value Other : Type} {context : ParseContext} {given later : List Lexeme → Prop}
  {depth : Nat} {before : Cursor} {parser : Parser Value} {next : Value → Parser Other}
  {first second language : Language Lexeme}

/-- A larger language and a stronger condition ask for less. -/
theorem Follows.mono {outcome : Outcome Value}
    (isPart : first ≤ second)
    (weaker : ∀ read, given read → later read)
    (follows : Follows later first before outcome) :
    Follows given second before outcome := by
  cases follows with
  | done value after word isWord rest_eq depth_eq =>
      exact .done value after word (isPart isWord) rest_eq depth_eq
  | failed error after read rest_eq completable =>
      exact .failed error after read rest_eq fun isGiven =>
        (completable (weaker read isGiven)).mono isPart
  | tooDeep place after => exact .tooDeep place after

theorem Explores.mono
    (explores : Explores context given depth parser first)
    (isPart : first ≤ second) :
    Explores context given depth parser second :=
  fun before depth_eq => (explores before depth_eq).mono isPart fun _ => id

theorem Explores.when
    (explores : Explores context Always depth parser language) :
    Explores context given depth parser language :=
  fun before depth_eq => (explores before depth_eq).mono (le_refl _) fun _ _ => trivial

/-! ## Sequences -/

theorem explores_pure {value : Value} :
    Explores context given depth (pure value) 1 :=
  fun before _ => .done value before [] Language.nil_mem_one rfl rfl

/-- What is read later comes after the word that was passed over first. -/
theorem Follows.prepend {outcome : Outcome Value} {middle : Cursor} {word : List Lexeme}
    (others : Follows later second middle outcome)
    (isWord : word ∈ first)
    (rest_eq : before.rest = word ++ middle.rest)
    (depth_eq : middle.depth = before.depth)
    (shift : ∀ read, given (word ++ read) → later read) :
    Follows given (first * second) before outcome := by
  cases others with
  | done result after other isOther otherRest_eq otherDepth_eq =>
      refine .done result after (word ++ other) (Language.append_mem_mul isWord isOther) ?_ ?_
      · rw [rest_eq, otherRest_eq, List.append_assoc]
      · rw [otherDepth_eq, depth_eq]
  | failed error after read otherRest_eq completable =>
      refine .failed error after (word ++ read) ?_ fun isGiven => ?_
      · rw [rest_eq, otherRest_eq, List.append_assoc]
      · exact .append isWord (completable (shift read isGiven))
  | tooDeep place after => exact .tooDeep place after

/-- A sequence explores a product: a failure of the first parser is completed in
both languages, one of the second parser in its own. -/
theorem Follows.bind
    (follows : Follows given first before (parser context before))
    (others : ∀ value, Explores context later before.depth (next value) second)
    (shift : ∀ front ∈ first, ∀ read, given (front ++ read) → later read)
    (closing : Completable second []) :
    Follows given (first * second) before ((parser >>= next) context before) := by
  rw [Parser.bind_run]
  generalize parser context before = outcome at follows ⊢
  cases follows with
  | done value middle word isWord rest_eq depth_eq =>
      exact (others value middle depth_eq).prepend isWord rest_eq depth_eq (shift word isWord)
  | failed error after read rest_eq completable =>
      exact .failed error after read rest_eq fun isGiven => (completable isGiven).mul closing
  | tooDeep place after => exact .tooDeep place after

/-- The condition for a later part of a sequence has to follow once the words
of the earlier part are read. -/
theorem Explores.bind_when
    (explores : Explores context given depth parser first) (later : List Lexeme → Prop)
    (others : ∀ value, Explores context later depth (next value) second)
    (shift : ∀ front ∈ first, ∀ read, given (front ++ read) → later read)
    (closing : Completable second []) :
    Explores context given depth (parser >>= next) (first * second) := by
  rintro before rfl
  exact (explores before rfl).bind others shift closing

/-- Without conditions a sequence of parsers explores the product of their
languages. -/
theorem Explores.bind
    (explores : Explores context Always depth parser first)
    (others : ∀ value, Explores context Always depth (next value) second)
    (closing : Completable second []) :
    Explores context Always depth (parser >>= next) (first * second) :=
  explores.bind_when Always others (fun _ _ _ => id) closing

/-- A value made of what was read changes nothing. -/
theorem Explores.map
    (explores : Explores context given depth parser language) (make : Value → Other) :
    Explores context given depth (parser >>= fun value => pure (make value)) language := by
  have nothing (value : Value) : Explores context Always depth (pure (make value)) 1 :=
    explores_pure
  have whole := explores.bind_when Always nothing (fun _ _ _ _ => trivial) .one
  rwa [mul_one] at whole

/-- A parser that fails at once has read nothing, so the language needs a word
that can be written. -/
theorem explores_unexpected {expectation : Expectation} (closing : Completable language []) :
    Explores context given depth (Parser.unexpected expectation : Parser Value) language :=
  fun before _ => .failed _ before [] rfl fun _ => closing

/-! ## Small parsers -/

/-- A run over the lexemes of a word is what exploring asks of a value. -/
theorem follows_of_passes {word : List Lexeme} {height : Nat} {value : Value} {after : Cursor}
    (isWord : word ∈ language) (passes : Passes context before word height after) :
    Follows given language before (.done value after) :=
  .done value after word isWord passes.rest_eq passes.depth_eq

/-- After a look at the next token the parser that is chosen by it goes on from
the same place. -/
theorem explores_peek_bind {choose : Option Token → Parser Value}
    (follows : ∀ before, before.depth = depth →
      Follows given language before (choose before.token? context before)) :
    Explores context given depth (Parser.peek >>= choose) language :=
  follows

/-- A token that was looked at is passed over. -/
theorem follows_advance_bind {token : Token} {next : Unit → Parser Other}
    (depth_eq : before.depth = depth)
    (isNext : before.token? = some token)
    (others : Explores context later depth (next ()) language)
    (shift : ∀ front ∈ oneOf token, ∀ read, given (front ++ read) → later read) :
    Follows given (oneOf token * language) before ((Parser.advance >>= next) context before) := by
  rcases Parser.token?_eq_some_iff.1 isNext with ⟨place, rest, same⟩
  have follows := others ⟨rest, before.depth⟩ depth_eq
  rw [same, Parser.bind_of_done (Parser.advance_run _ _ _ _)]
  have isWord : [⟨token, place⟩] ∈ oneOf token := ⟨place, rfl⟩
  exact follows.prepend isWord rfl rfl (shift _ isWord)

/-- Eating a token explores the language in which the token may be left out. -/
theorem explores_eat (token : Token) :
    Explores context given depth (Parser.eat token) (oneOf token + 1) := by
  intro before _
  by_cases isNext : before.token? = some token
  · rcases Parser.token?_eq_some_iff.1 isNext with ⟨place, rest, same⟩
    rw [same, Parser.eat_run]
    exact .done true _ [⟨token, place⟩] (.inl ⟨place, rfl⟩) rfl rfl
  · rw [Parser.eat_run_of_ne isNext]
    exact .done false before [] (.inr rfl) rfl rfl

/-- A choice by one token explores the sum of both ways to go on. -/
theorem explores_eat_bind_ite (token : Token) {taken left : Parser Value}
    (ifTaken : Explores context Always depth taken first)
    (ifLeft : Explores context Always depth left second) :
    Explores context Always depth
      (Parser.eat token >>= fun eaten => if eaten = true then taken else left)
      (oneOf token * first + second) := by
  rintro before rfl
  rw [Parser.bind_run]
  by_cases isNext : before.token? = some token
  · rcases Parser.token?_eq_some_iff.1 isNext with ⟨place, rest, same⟩
    have follows := ifTaken ⟨rest, before.depth⟩ rfl
    rw [same, Parser.eat_run]
    have isWord : [⟨token, place⟩] ∈ oneOf token := ⟨place, rfl⟩
    have whole : Follows Always (oneOf token * first) _ _ :=
      follows.prepend isWord (congrArg Cursor.rest same) rfl fun _ _ => trivial
    rw [← same]
    exact whole.mono (fun _ => .inl) fun _ => id
  · rw [Parser.eat_run_of_ne isNext]
    exact (ifLeft before rfl).mono (fun _ => .inr) fun _ => id

/-- A mark that is expected can always be written. -/
theorem explores_expect (mark : Mark) (expectation : Expectation) :
    Explores context Always depth (Parser.expect mark expectation) (oneOf (.mark mark)) := by
  have isWritable : (Token.mark mark).IsWritable := ⟨mark.text, rfl⟩
  have explores : Explores context Always depth (Parser.expect mark expectation)
      (oneOf (.mark mark) * 1 + oneOf (.mark mark)) :=
    explores_eat_bind_ite _ explores_pure (explores_unexpected (.oneOf isWritable))
  refine explores.mono ?_
  rw [mul_one]
  exact fun _ => Or.rec id id

/-- The words of one name of a type, module or class. -/
def upperNames : Language Lexeme :=
  {word | ∃ name place, word = [⟨.upper name, place⟩]}

/-- The words of one name of a constant, function or parameter. -/
def lowerNames : Language Lexeme :=
  {word | ∃ name place, word = [⟨.lower name, place⟩]}

theorem completable_upperNames : Completable upperNames [] := by
  refine ⟨[⟨.upper "A", ⟨0, 0⟩⟩], List.forall_mem_singleton.2 ⟨['A'], ?_, rfl⟩, "A", _, rfl⟩
  exact Pattern.cons_mem_name_iff.2 ⟨rfl, by simp⟩

/-- A name that is no reserved word, to be written where a name is missing. -/
theorem not_isReserved_x : ¬ IsReserved "x" := by
  rintro (⟨word, same⟩ | ⟨type, same⟩)
  · cases word <;> exact absurd same (by decide)
  · cases type <;> exact absurd same (by decide)

theorem completable_lowerNames : Completable lowerNames [] := by
  refine ⟨[⟨.lower "x", ⟨0, 0⟩⟩], List.forall_mem_singleton.2 ⟨['x'], ?_, rfl, not_isReserved_x⟩,
    "x", _, rfl⟩
  exact Pattern.cons_mem_name_iff.2 ⟨rfl, by simp⟩

theorem explores_upperName (expectation : Expectation) :
    Explores context Always depth (Parser.upperName expectation) upperNames := by
  refine explores_peek_bind fun before depth_eq => ?_
  generalize isNext : before.token? = found
  split
  · next name =>
      refine Follows.mono ?_ (fun _ => id)
        (follows_advance_bind depth_eq isNext explores_pure fun _ _ _ => id)
      rw [mul_one]
      exact fun word ⟨place, same⟩ => ⟨name, place, same⟩
  · exact explores_unexpected completable_upperNames before depth_eq

theorem explores_lowerName (expectation : Expectation) :
    Explores context Always depth (Parser.lowerName expectation) lowerNames := by
  refine explores_peek_bind fun before depth_eq => ?_
  generalize isNext : before.token? = found
  split
  · next name =>
      refine Follows.mono ?_ (fun _ => id)
        (follows_advance_bind depth_eq isNext explores_pure fun _ _ _ => id)
      rw [mul_one]
      exact fun word ⟨place, same⟩ => ⟨name, place, same⟩
  · exact explores_unexpected completable_lowerNames before depth_eq

/-! ## Nesting and repetition -/

/-- Inside a nested parser there is room for one more level. -/
theorem explores_nested
    (inner : ¬ context.nestingLimit.any (· ≤ depth) →
      Explores context given (depth + 1) parser language) :
    Explores context given depth (Parser.nested parser) language := by
  rintro before rfl
  unfold Parser.nested
  split
  · exact .tooDeep _ _
  · next notFull =>
      have follows := inner notFull { before with depth := before.depth + 1 } rfl
      generalize parser context _ = outcome at follows ⊢
      cases follows with
      | done value after word isWord rest_eq depth_eq =>
          exact .done value _ word isWord rest_eq (by simp [depth_eq])
      | failed error after read rest_eq completable =>
          exact .failed error _ read rest_eq completable
      | tooDeep place after => exact .tooDeep place _

/-- The bound of a repetition does not show in the language. -/
theorem explores_withRemaining {parser : Nat → Parser Value}
    (explores : ∀ bound, Explores context given depth (parser bound) language) :
    Explores context given depth (Parser.withRemaining parser) language :=
  fun before depth_eq => explores _ before depth_eq

section Lists

variable {Tree : Type} {spell : Tree → List Lexeme} {fits : Tree → Prop} {item : Parser Value}

/-- A list that fails in an item or before its closing mark is the front of a
list. -/
theorem explores_commaListUpTo
    (itemExplores : Explores context Always depth item (phrases spell fits))
    (close : Mark) (expectation : Expectation) (bound : Nat) :
    Explores context Always depth (Parser.commaListUpTo item close expectation bound)
      (commaLists spell fits close) := by
  have closing : Completable (oneOf (.mark close)) [] := .oneOf ⟨close.text, rfl⟩
  have closes (item : Value) : Explores context Always depth
      (Parser.expect close expectation >>= fun _ => pure [item]) (oneOf (.mark close)) :=
    (explores_expect close expectation).map _
  induction bound with
  | zero =>
      refine (itemExplores.bind closes closing).mono ?_
      rintro _ ⟨_, ⟨tree, isFit, rfl⟩, _, ⟨place, rfl⟩, rfl⟩
      exact ⟨.last tree place, by simpa [CommaTree.items] using isFit, rfl⟩
  | succ bound ih =>
      have others (first : Value) := explores_eat_bind_ite (.mark .comma)
        (ih.map fun others => first :: others) (closes first)
      refine (itemExplores.bind others (closing.mono fun _ => .inr)).mono ?_
      rintro _ ⟨_, ⟨tree, isFit, rfl⟩, _, isMore | ⟨place, rfl⟩, rfl⟩
      · rcases isMore with ⟨_, ⟨comma, rfl⟩, _, ⟨list, areFit, rfl⟩, rfl⟩
        refine ⟨.more tree comma list, ?_, rfl⟩
        simpa [CommaTree.items] using ⟨isFit, areFit⟩
      · exact ⟨.last tree place, by simpa [CommaTree.items] using isFit, rfl⟩

theorem explores_commaList
    (itemExplores : Explores context Always depth item (phrases spell fits))
    (close : Mark) (expectation : Expectation) :
    Explores context Always depth (Parser.commaList item close expectation)
      (commaLists spell fits close) :=
  explores_withRemaining (explores_commaListUpTo itemExplores close expectation)

/-- A list in parentheses explores the lists that may be empty. -/
theorem explores_parenList
    (itemExplores : Explores context Always depth item (phrases spell fits)) :
    Explores context Always depth (Parser.parenList item)
      (parenLists spell fits) := by
  refine (explores_eat_bind_ite _ explores_pure (explores_commaList itemExplores _ _)).mono ?_
  rintro _ (⟨_, ⟨close, rfl⟩, _, rfl, rfl⟩ | ⟨list, areFit, rfl⟩)
  · exact ⟨.empty close, by simp [ParenTree.items], rfl⟩
  · exact ⟨.filled list, areFit, rfl⟩

/-- A parenthesis alone is a list. -/
theorem completable_parenLists : Completable (parenLists spell fits) [] := by
  have closing : Completable (oneOf (.mark .rightParen)) [] := .oneOf ⟨_, rfl⟩
  refine closing.mono ?_
  rintro _ ⟨close, rfl⟩
  exact ⟨.empty close, by simp [ParenTree.items], rfl⟩

/-- A repetition fails in one of its items only, and those before it have been
read as a whole. -/
theorem explores_repeatAfter
    {token : Token}
    (itemExplores : Explores context Always depth item language)
    (isPhrase : oneOf token * language ≤ phrases spell fits) (bound : Nat) :
    Explores context Always depth (Parser.repeatAfter token item bound)
      (phrases (fun trees : List Tree => trees.flatMap spell) fun trees =>
        ∀ tree ∈ trees, fits tree) := by
  have nothing : (1 : Language Lexeme) ≤ phrases (fun trees : List Tree => trees.flatMap spell)
      fun trees => ∀ tree ∈ trees, fits tree := by
    rintro _ rfl
    exact ⟨[], nofun, rfl⟩
  induction bound with
  | zero => exact explores_pure.mono nothing
  | succ bound ih =>
      have others (first : Value) := ih.map fun others => first :: others
      have taken := itemExplores.bind others (Completable.one.mono nothing)
      refine (explores_eat_bind_ite _ taken explores_pure).mono ?_
      rintro word (isMore | isNothing)
      · rw [← mul_assoc] at isMore
        rcases isMore with ⟨_, isFirst, _, ⟨trees, areFit, rfl⟩, rfl⟩
        rcases isPhrase isFirst with ⟨tree, isFit, rfl⟩
        exact ⟨tree :: trees, List.forall_mem_cons.2 ⟨isFit, areFit⟩, rfl⟩
      · exact nothing isNothing

end Lists

end Explores

end TarnBuild
