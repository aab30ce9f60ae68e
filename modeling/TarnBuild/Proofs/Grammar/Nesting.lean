import TarnBuild.Proofs.Grammar.Parse
import TarnBuild.Proofs.Parser.Recorder

/-!
# The nesting limit

The parser without a limit is written once more as a recorder of the levels
that it opens.  Each recorder has the name of a parser and goes the same way,
with `flat` around the parts that open no levels.  It mirrors its parser, so the
recording of a source says what becomes of the source under every limit.  Below
the limit nothing changes, and a source that nests deeper is rejected where the
first level beyond the limit is opened, whatever comes after it.
-/

namespace TarnBuild

variable {Value : Type}

/-! ## Lists -/

namespace Recorder

/-- The recorder of a list, whose items may open levels. -/
def commaListUpTo (item : Recorder Value) (close : Mark) (expectation : Expectation) :
    Nat → Recorder (List Value)
  | 0 => do
      let only ← item
      flat (Parser.expect close expectation)
      return [only]
  | bound + 1 => do
      let first ← item
      if ← flat (Parser.eat (.mark .comma)) then
        let others ← commaListUpTo item close expectation bound
        return first :: others
      else
        flat (Parser.expect close expectation)
        return [first]

/-- The recorder of a list with room for all of it. -/
def commaList (item : Recorder Value) (close : Mark) (expectation : Expectation) :
    Recorder (List Value) :=
  withRemaining (commaListUpTo item close expectation)

/-- The recorder of a list in parentheses, which may be empty. -/
def parenList (item : Recorder Value) : Recorder (List Value) := do
  if ← flat (Parser.eat (.mark .rightParen)) then
    return []
  else
    commaList item .rightParen .commaOrParen

end Recorder

section Lists

variable {recorder : Recorder Value} {parser : Parser Value}

/-- A list is mirrored if its items are. -/
theorem mirrors_commaListUpTo
    (item : Mirrors recorder parser) (close : Mark) (expectation : Expectation) (bound : Nat) :
    Mirrors (.commaListUpTo recorder close expectation bound)
      (.commaListUpTo parser close expectation bound) := by
  have closes := (isFlat_expect close expectation).mirrors
  induction bound with
  | zero => exact item.bind fun only => closes.bind fun _ => mirrors_pure _
  | succ bound ih =>
      refine item.bind fun first => (isFlat_eat _).mirrors.bind fun _ => mirrors_ite ?_ ?_
      · exact ih.bind fun others => mirrors_pure _
      · exact closes.bind fun _ => mirrors_pure _

theorem mirrors_commaList
    (item : Mirrors recorder parser) (close : Mark) (expectation : Expectation) :
    Mirrors (.commaList recorder close expectation) (.commaList parser close expectation) :=
  mirrors_withRemaining (mirrors_commaListUpTo item close expectation)

theorem mirrors_parenList (item : Mirrors recorder parser) :
    Mirrors (.parenList recorder) (.parenList parser) :=
  (isFlat_eat _).mirrors.bind fun _ => mirrors_ite (mirrors_pure _) (mirrors_commaList item _ _)

end Lists

/-! ## Types -/

namespace Recorder

/-- The recorder of a type.  Every type opens one level, and the types inside it
are recorded within that level. -/
def typeUpTo : Nat → Recorder TypeExpr
  | 0 => nested (flat (Parser.unexpected .type))
  | bound + 1 => nested do
      match ← flat Parser.peek with
      | some (.primitive type) =>
          flat Parser.advance
          return .primitive type
      | some (.upper name) =>
          flat Parser.advance
          if ← flat (Parser.eat (.mark .less)) then
            let arguments ← commaList (typeUpTo bound) .greater .commaOrAngle
            return .named name arguments
          else
            return .named name []
      | some (.mark .leftParen) =>
          flat Parser.advance
          let elements ← parenList (typeUpTo bound)
          if ← flat (Parser.eat (.mark .arrow)) then
            let result ← typeUpTo bound
            return .function elements result
          else
            return TypeExpr.group elements
      | _ => flat (Parser.unexpected .type)

/-- The recorder of a type with room for all of it. -/
def type : Recorder TypeExpr :=
  withRemaining typeUpTo

/-- The recorder of an annotation, if there is one. -/
def annotation : Recorder (Option TypeExpr) := do
  if ← flat (Parser.eat (.mark .colon)) then
    return some (← type)
  else
    return none

end Recorder

/-- Types open levels for types inside them, so this is an induction on the
bound, one case for each first token. -/
theorem mirrors_typeUpTo (bound : Nat) :
    Mirrors (Recorder.typeUpTo bound) (Parser.typeUpTo bound) := by
  have noType : Mirrors (.flat (.unexpected .type)) (.unexpected .type : Parser TypeExpr) :=
    (isFlat_unexpected .type).mirrors
  induction bound with
  | zero => exact noType.nested
  | succ bound ih =>
      refine (isFlat_peek.mirrors.bind fun found => ?_).nested
      cases found with
      | none => exact noType
      | some token =>
          cases token with
          | primitive type => exact isFlat_advance.mirrors.bind fun _ => mirrors_pure _
          | upper name =>
              refine isFlat_advance.mirrors.bind fun _ => ?_
              refine (isFlat_eat _).mirrors.bind fun _ => mirrors_ite ?_ (mirrors_pure _)
              exact (mirrors_commaList ih _ _).bind fun arguments => mirrors_pure _
          | mark sign =>
              cases sign with
              | leftParen =>
                  refine isFlat_advance.mirrors.bind fun _ => ?_
                  refine (mirrors_parenList ih).bind fun elements => ?_
                  refine (isFlat_eat _).mirrors.bind fun _ => mirrors_ite ?_ (mirrors_pure _)
                  exact ih.bind fun result => mirrors_pure _
              | _ => exact noType
          | _ => exact noType

theorem mirrors_type : Mirrors Recorder.type Parser.type :=
  mirrors_withRemaining mirrors_typeUpTo

theorem mirrors_annotation : Mirrors Recorder.annotation Parser.annotation :=
  (isFlat_eat _).mirrors.bind fun _ =>
    mirrors_ite (mirrors_type.bind fun _ => mirrors_pure _) (mirrors_pure _)

/-! ## Constants and functions -/

theorem isFlat_typeParameters : IsFlat Parser.typeParameters :=
  (isFlat_eat _).bind fun _ =>
    isFlat_ite (isFlat_withRemaining (isFlat_commaListUpTo (isFlat_upperName _) _ _))
      (isFlat_pure _)

/-- An expression opens no level, however its delimiters nest. -/
theorem isFlat_expression : IsFlat Parser.expression := by
  intro context rest depth
  unfold Parser.expression
  dsimp only
  split
  · rfl
  · split <;> rfl

namespace Recorder

/-- The recorder of a constant, in which only the annotation may open levels. -/
def constant (visibility : Visibility) : Recorder Constant := do
  let name ← flat (Parser.lowerName .constantName)
  let annotation ← annotation
  flat (Parser.expect .equal .equalSign)
  let value ← flat Parser.expression
  return { name, visibility, annotation, value }

/-- The recorder of a parameter. -/
def parameter : Recorder Parameter := do
  let name ← flat (Parser.lowerName .parameterName)
  flat (Parser.expect .colon .colon)
  let annotation ← type
  return { name, annotation }

/-- The recorder of a function, in which the parameters and the result may open
levels. -/
def function (visibility : Visibility) : Recorder Function := do
  let name ← flat (Parser.lowerName .functionName)
  let typeParameters ← flat Parser.typeParameters
  flat (Parser.expect .leftParen .openingParen)
  let parameters ← parenList parameter
  flat (Parser.expect .colon .returnColon)
  let result ← type
  flat (Parser.expect .equal .equalSign)
  let body ← flat Parser.expression
  return { name, visibility, typeParameters, parameters, result, body }

end Recorder

theorem mirrors_constant (visibility : Visibility) :
    Mirrors (Recorder.constant visibility) (Parser.constant visibility) := by
  refine (isFlat_lowerName _).mirrors.bind fun name => ?_
  refine mirrors_annotation.bind fun annotation => ?_
  refine (isFlat_expect _ _).mirrors.bind fun _ => ?_
  exact isFlat_expression.mirrors.bind fun value => mirrors_pure _

theorem mirrors_parameter : Mirrors Recorder.parameter Parser.parameter := by
  refine (isFlat_lowerName _).mirrors.bind fun name => ?_
  refine (isFlat_expect _ _).mirrors.bind fun _ => ?_
  exact mirrors_type.bind fun annotation => mirrors_pure _

theorem mirrors_function (visibility : Visibility) :
    Mirrors (Recorder.function visibility) (Parser.function visibility) := by
  refine (isFlat_lowerName _).mirrors.bind fun name => ?_
  refine isFlat_typeParameters.mirrors.bind fun typeParameters => ?_
  refine (isFlat_expect _ _).mirrors.bind fun _ => ?_
  refine (mirrors_parenList mirrors_parameter).bind fun parameters => ?_
  refine (isFlat_expect _ _).mirrors.bind fun _ => ?_
  refine mirrors_type.bind fun result => ?_
  refine (isFlat_expect _ _).mirrors.bind fun _ => ?_
  exact isFlat_expression.mirrors.bind fun body => mirrors_pure _

/-! ## Members and constructs -/

theorem isFlat_constructKind : IsFlat Parser.constructKind := by
  refine isFlat_peek.bind fun found => ?_
  split
  · exact isFlat_advance.bind fun _ => isFlat_pure _
  · exact isFlat_advance.bind fun _ => isFlat_pure _
  · exact isFlat_unexpected _

namespace Recorder

/-- The recorder of a member that is no construct. -/
def ownMember : Recorder Member := do
  let visibility :=
    if ← flat (Parser.eat (.keyword .privateWord)) then Visibility.hidden else Visibility.visible
  match ← flat Parser.peek with
  | some (.keyword .valWord) =>
      flat Parser.advance
      let constant ← constant visibility
      flat (discard (Parser.eat (.mark .semicolon)))
      return .constant constant
  | some (.keyword .functionWord) =>
      flat Parser.advance
      let function ← function visibility
      flat (discard (Parser.eat (.mark .semicolon)))
      return .function function
  | _ => flat (Parser.unexpected .memberWord)

/-- The recorder of the members of a construct, given one for the constructs
among them. -/
def membersUpTo (inner : Recorder Construct) : Nat → Recorder (List Member)
  | 0 => flat (Parser.unexpected .closingBrace)
  | bound + 1 => do
      match ← flat Parser.peek with
      | some (.mark .rightBrace) =>
          flat Parser.advance
          return []
      | some (.keyword .moduleWord) | some (.keyword .classWord) =>
          let first ← inner
          let others ← membersUpTo inner bound
          return .nested first :: others
      | some _ =>
          let first ← ownMember
          let others ← membersUpTo inner bound
          return first :: others
      | none => flat (Parser.unexpected .closingBrace)

/-- The recorder of a construct, which opens one level. -/
def constructUpTo : Nat → Recorder Construct
  | 0 => nested (flat (Parser.unexpected .constructWord))
  | bound + 1 => nested do
      let kind ← flat Parser.constructKind
      let name ← flat (Parser.upperName .constructName)
      let typeParameters ← flat Parser.typeParameters
      flat (Parser.expect .leftBrace .openingBrace)
      let members ← withRemaining (membersUpTo (constructUpTo bound))
      return Construct.ofMembers name kind typeParameters members

end Recorder

/-- The cases are the two words that a member begins with, and everything else,
which is rejected alike. -/
theorem mirrors_ownMember : Mirrors Recorder.ownMember Parser.ownMember := by
  have noMember :
      Mirrors (.flat (.unexpected .memberWord)) (.unexpected .memberWord : Parser Member) :=
    (isFlat_unexpected .memberWord).mirrors
  refine (isFlat_eat _).mirrors.bind fun isPrivate => isFlat_peek.mirrors.bind fun found => ?_
  cases found with
  | none => exact noMember
  | some token =>
      cases token with
      | keyword word =>
          cases word with
          | valWord =>
              refine isFlat_advance.mirrors.bind fun _ => ?_
              refine (mirrors_constant _).bind fun constant => ?_
              exact (isFlat_discard_eat _).mirrors.bind fun _ => mirrors_pure _
          | functionWord =>
              refine isFlat_advance.mirrors.bind fun _ => ?_
              refine (mirrors_function _).bind fun function => ?_
              exact (isFlat_discard_eat _).mirrors.bind fun _ => mirrors_pure _
          | _ => exact noMember
      | _ => exact noMember

/-- Members are mirrored if the constructs among them are. -/
theorem mirrors_membersUpTo
    {recorder : Recorder Construct} {parser : Parser Construct}
    (inner : Mirrors recorder parser) (bound : Nat) :
    Mirrors (Recorder.membersUpTo recorder bound) (Parser.membersUpTo parser bound) := by
  induction bound with
  | zero => exact (isFlat_unexpected _).mirrors
  | succ bound ih =>
      have nested := inner.bind fun first => ih.bind fun others =>
        mirrors_pure (Member.nested first :: others)
      have own := mirrors_ownMember.bind fun first => ih.bind fun others =>
        mirrors_pure (first :: others)
      refine isFlat_peek.mirrors.bind fun found => ?_
      cases found with
      | none => exact (isFlat_unexpected _).mirrors
      | some token =>
          cases token with
          | mark sign =>
              cases sign with
              | rightBrace => exact isFlat_advance.mirrors.bind fun _ => mirrors_pure _
              | _ => exact own
          | keyword word =>
              cases word with
              | moduleWord => exact nested
              | classWord => exact nested
              | _ => exact own
          | _ => exact own

theorem mirrors_constructUpTo (bound : Nat) :
    Mirrors (Recorder.constructUpTo bound) (Parser.constructUpTo bound) := by
  induction bound with
  | zero => exact (isFlat_unexpected _).mirrors.nested
  | succ bound ih =>
      refine (isFlat_constructKind.mirrors.bind fun kind => ?_).nested
      refine (isFlat_upperName _).mirrors.bind fun name => ?_
      refine isFlat_typeParameters.mirrors.bind fun typeParameters => ?_
      refine (isFlat_expect _ _).mirrors.bind fun _ => ?_
      exact (mirrors_withRemaining (mirrors_membersUpTo ih)).bind fun members => mirrors_pure _

/-! ## Units -/

theorem isFlat_imports : IsFlat Parser.imports := by
  refine isFlat_withRemaining (isFlat_repeatAfter _ ?_)
  exact (isFlat_upperName _).bind fun name =>
    (isFlat_discard_eat _).bind fun _ => isFlat_pure _

/-- The recorder of a whole source. -/
def Recorder.unit : Recorder CompilationUnit := do
  let imports ← flat Parser.imports
  let body ← withRemaining constructUpTo
  match ← flat Parser.peek with
  | some token => flat (Parser.fail (.surplus token body.kind))
  | none => return ⟨NameSet.ofList imports, body⟩

/-- The recorder of a whole source mirrors its parser, and so says what the
parser does under every limit. -/
theorem mirrors_unit : Mirrors Recorder.unit Parser.unit := by
  refine isFlat_imports.mirrors.bind fun imports => ?_
  refine (mirrors_withRemaining mirrors_constructUpTo).bind fun body => ?_
  refine isFlat_peek.mirrors.bind fun found => ?_
  cases found with
  | some token => exact (isFlat_fail _).mirrors
  | none => exact mirrors_pure _

/-- The recording of the parser without a limit on a source.  No level is opened
in a source that has no lexemes to parse. -/
def recording (source : List Char) : Recording CompilationUnit :=
  match lex source with
  | .ok lexemes => Recorder.unit source lexemes
  | .error error => ⟨.error error, [], .nil⟩

/-- The recording decides what becomes of the source under every limit. -/
theorem parseWithin_eq_limited (limit : Option Nat) (source : List Char) :
    parseWithin limit source = ((recording source).limited ⟨source, limit⟩ 0).result := by
  unfold parseWithin recording
  cases lex source with
  | error error => rfl
  | ok lexemes =>
      show (Parser.unit ⟨source, limit⟩ ⟨lexemes, 0⟩).result = _
      rw [mirrors_unit ⟨source, limit⟩ lexemes 0]

/-- As long as the parser without a limit has no more constructs and types open
at once than the limit allows, the limit changes nothing.  Otherwise the source
is rejected at the lexeme, or at the end of the source, where the first of them
beyond the limit is opened. -/
theorem parse_eq_parseWithin_none_or_nestingTooDeep (source : List Char) :
    (recording source).result = parseWithin none source ∧
    ((recording source).levels.height ≤ nestingLimit →
      parse source = parseWithin none source) ∧
    (nestingLimit < (recording source).levels.height →
      ∃ before ahead after,
        (recording source).levels.openings 0 = before ++ ⟨nestingLimit + 1, ahead⟩ :: after ∧
        (∀ earlier ∈ before, earlier.count ≤ nestingLimit) ∧
        parse source = .error ⟨.nestingTooDeep, Cursor.place ⟨ahead, nestingLimit⟩ source⟩) := by
  have unlimited := parseWithin_eq_limited none source
  have limited := parseWithin_eq_limited (some nestingLimit) source
  rw [Recording.result_limited] at unlimited limited
  rw [Levels.beyond?_none] at unlimited
  have fits := (recording source).levels.beyond?_eq_none_iff (Nat.zero_le nestingLimit)
  rw [Nat.zero_add] at fits
  refine ⟨unlimited.symm, fun isWithin => ?_, fun isDeeper => ?_⟩
  · rw [fits.2 isWithin] at limited
    exact limited.trans unlimited.symm
  · cases isFirst : (recording source).levels.beyond? (some nestingLimit) 0 with
    | none => exact absurd (fits.1 isFirst) (Nat.not_le_of_lt isDeeper)
    | some opening =>
        rcases Levels.openings_of_beyond? isFirst with ⟨before, after, split, areWithin⟩
        have count_eq := Levels.count_of_beyond? (Nat.zero_le nestingLimit) isFirst
        rcases opening with ⟨count, ahead⟩
        cases count_eq
        rw [isFirst] at limited
        exact ⟨before, ahead, after, split, areWithin, limited⟩

/-- The first level too many is opened where a type is missing at the end. -/
theorem parentheses_nest_too_deep :
    let source := "class A \x7b val x: ".toList ++ List.replicate 255 '('
    nestingLimit < (recording source).levels.height ∧
      ∃ before after,
        (recording source).levels.openings 0 = before ++ ⟨nestingLimit + 1, []⟩ :: after ∧
        parse source = .error ⟨.nestingTooDeep, ⟨272, 272⟩⟩ := by
  intro source
  have isDeeper : nestingLimit < (recording source).levels.height := by decide +kernel
  have isLast : ((recording source).levels.openings 0).all fun opening =>
      opening.count ≤ nestingLimit || opening.ahead.isEmpty := by
    decide +kernel
  rcases (parse_eq_parseWithin_none_or_nestingTooDeep source).2.2 isDeeper with
    ⟨before, ahead, after, split, _, rejected⟩
  have noneAhead : ahead = [] := by
    have isOpening : ⟨nestingLimit + 1, ahead⟩ ∈ (recording source).levels.openings 0 := by
      simp [split]
    simpa [Nat.not_succ_le_self] using List.all_eq_true.1 isLast _ isOpening
  have length_eq : Text.byteLength source = 272 := by decide +kernel
  subst noneAhead
  rw [Cursor.place, length_eq] at rejected
  exact ⟨isDeeper, before, after, split, rejected⟩

-- The types in one pair of parentheses are open one after the other.
example :
    ((recording "module M \x7b val x: (A, B<C>) = 1 \x7d".toList).levels.openings 0).map
        Opening.count = [1, 2, 3, 3, 4] := by
  decide +kernel

theorem parseWithin_some_eq_ok_iff {limit : Nat} {source : List Char} {unit : CompilationUnit} :
    parseWithin (some limit) source = .ok unit ↔
      parseWithin none source = .ok unit ∧ (recording source).levels.height ≤ limit := by
  have fits := (recording source).levels.beyond?_eq_none_iff (Nat.zero_le limit)
  rw [Nat.zero_add] at fits
  rw [parseWithin_eq_limited, parseWithin_eq_limited, Recording.result_limited,
    Recording.result_limited, Levels.beyond?_none, ← fits]
  cases (recording source).levels.beyond? (some limit) 0 with
  | none => simp
  | some opening => simp

/-- In a source that the grammar derives, as many levels are open at once as in
its derivation. -/
theorem height_levels_recording
    {source : List Char} {tree : UnitTree}
    (isLexed : lex source = .ok tree.lexemes) :
    (recording source).levels.height = tree.height := by
  refine eq_of_forall_ge_iff fun limit => ?_
  have accepted : parseWithin none source = .ok (tree.unit source) :=
    parseWithin_eq_ok_iff.2 ⟨tree, isLexed, nofun, rfl⟩
  constructor
  · intro isWithin
    have again := parseWithin_some_eq_ok_iff.2 ⟨accepted, isWithin⟩
    rcases parseWithin_eq_ok_iff.1 again with ⟨other, isOtherLexed, fits, _⟩
    cases UnitTree.lexemes_injective (Except.ok.inj (isLexed.symm.trans isOtherLexed))
    exact fits limit rfl
  · intro isWithin
    have fits : ∀ most ∈ some limit, tree.height ≤ most := by
      rintro most ⟨⟩
      exact isWithin
    exact (parseWithin_some_eq_ok_iff.1 (parseWithin_eq_ok_iff.2 ⟨tree, isLexed, fits, rfl⟩)).2

end TarnBuild
