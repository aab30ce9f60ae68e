import TarnBuild.Proofs.Grammar.CommonFront

/-!
# Values behind lexemes

Most parsers of the grammar have no value for nothing: wherever one of them ends with
a value, it has passed over a lexeme.  A sequence of parsers is of this kind if one of
them is and the others settle.  The parsers of phrases are, since the trees of these
phrases have lexemes.
-/

namespace TarnBuild

variable {Value Next : Type} {parser : Parser Value} {next : Value → Parser Next}
  {context : ParseContext} {before after : Cursor} {token : Token}

/-- A sequence advances if its first part does. -/
theorem Advances.bind
    (first : Advances parser)
    (others : ∀ value, Settles (next value)) :
    Advances (parser >>= next) := by
  intro context before result after ends
  rcases Parser.bind_eq_done_iff.1 ends with ⟨value, middle, firstEnds, ends⟩
  have isShorter := first context before value middle firstEnds
  exact ((others value).length_le_of_done ends).trans_lt isShorter

/-- A sequence advances if its second part does. -/
theorem Settles.bind_advances
    (first : Settles parser)
    (others : ∀ value, Advances (next value)) :
    Advances (parser >>= next) := by
  intro context before result after ends
  rcases Parser.bind_eq_done_iff.1 ends with ⟨value, middle, firstEnds, ends⟩
  have isShorter := others value context middle result after ends
  exact isShorter.trans_le (first.length_le_of_done firstEnds)

/-- At the end advancing passes over nothing, but a token that was seen is there. -/
theorem length_lt_of_advance {value : Unit}
    (isNext : before.token? = some token)
    (ends : Parser.advance context before = .done value after) :
    after.rest.length < before.rest.length := by
  rcases Parser.passes_of_advance isNext ends with ⟨place, passes⟩
  exact passes.length_lt

/-- A token that was eaten is gone. -/
theorem length_lt_of_eat
    (ends : Parser.eat token context before = .done true after) :
    after.rest.length < before.rest.length := by
  rcases Parser.eat_eq_done_iff.1 ends with ⟨_, place, passes⟩ | ⟨isFalse, _⟩
  · exact passes.length_lt
  · cases isFalse

theorem advances_expect (mark : Mark) (expectation : Expectation) :
    Advances (Parser.expect mark expectation) := by
  intro context before value after ends
  rcases Parser.passes_of_expect ends with ⟨place, passes⟩
  exact passes.length_lt

theorem advances_upperName (expectation : Expectation) :
    Advances (Parser.upperName expectation) := by
  intro context before name after ends
  rcases Parser.passes_of_upperName ends with ⟨place, passes⟩
  exact passes.length_lt

theorem advances_lowerName (expectation : Expectation) :
    Advances (Parser.lowerName expectation) := by
  intro context before name after ends
  rcases Parser.passes_of_lowerName ends with ⟨place, passes⟩
  exact passes.length_lt

/-- A list has an item at least. -/
theorem advances_commaList
    (advances : Advances parser) (settles : Settles parser)
    (close : Mark) (expectation : Expectation) :
    Advances (Parser.commaList parser close expectation) := by
  intro context before values after ends
  have upTo (bound : Nat) : Advances (Parser.commaListUpTo parser close expectation bound) := by
    cases bound with
    | zero =>
        exact advances.bind fun _ => (settles_expect _ _).bind fun _ => settles_pure _
    | succ bound =>
        refine advances.bind fun _ => (settles_eat _).bind fun _ => settles_ite ?_ ?_
        · exact (settles_commaListUpTo settles close expectation bound).bind fun _ =>
            settles_pure _
        · exact (settles_expect _ _).bind fun _ => settles_pure _
  exact upTo before.rest.length context before values after ends

theorem advances_parenList (advances : Advances parser) (settles : Settles parser) :
    Advances (Parser.parenList parser) := by
  intro context before values after ends
  rcases Parser.eat_bind_ite_eq_done_iff.1 ends with ⟨place, middle, passes, ends⟩ | ⟨_, ends⟩
  · rcases Parser.pure_eq_done_iff.1 ends with ⟨_, rfl⟩
    exact passes.length_lt
  · exact advances_commaList advances settles _ _ context before values after ends

/-- A type has a lexeme at least, as its tree has. -/
theorem advances_typeUpTo (bound : Nat) : Advances (Parser.typeUpTo bound) := by
  intro context before value after ends
  rcases Parser.sound_typeUpTo context bound before value after ends with ⟨tree, _, passes⟩
  cases tree <;> exact passes.length_lt

theorem advances_type : Advances Parser.type :=
  fun context before => advances_typeUpTo before.rest.length context before

/-- An expression has a lexeme at least: a run of none is an error. -/
theorem advances_expression : Advances Parser.expression := by
  intro context before value after ends
  rcases Parser.exists_tree_of_expression ends with ⟨tree, _, passes⟩
  exact passes.length_lt_of_ne_nil tree.isExpression.nonempty

theorem advances_parameter : Advances Parser.parameter := by
  intro context before value after ends
  rcases Parser.sound_parameter context before value after ends with ⟨tree, _, passes⟩
  exact passes.length_lt

theorem advances_constant (visibility : Visibility) : Advances (Parser.constant visibility) := by
  intro context before value after ends
  rcases Parser.sound_constant context visibility before value after ends with ⟨tree, _, passes⟩
  exact passes.length_lt

theorem advances_function (visibility : Visibility) : Advances (Parser.function visibility) := by
  intro context before value after ends
  rcases Parser.sound_function context visibility before value after ends with ⟨tree, _, passes⟩
  exact passes.length_lt

theorem advances_construct : Advances Parser.construct :=
  fun context before => advances_constructUpTo before.rest.length context before

theorem advances_members : Advances (Parser.members Parser.construct) := by
  intro context before value after ends
  have soundConstruct : Parser.Sound context Parser.construct ConstructTree.lexemes
      ConstructTree.height (ConstructTree.construct context.source) :=
    fun before => Parser.sound_constructUpTo context before.rest.length before
  rcases Parser.sound_membersUpTo soundConstruct before.rest.length before value after ends with
    ⟨tree, _, passes⟩
  exact passes.length_lt_of_ne_nil tree.lexemes_ne_nil

theorem advances_unit : Advances Parser.unit := by
  refine settles_imports.bind_advances fun imports => advances_construct.bind fun body => ?_
  refine settles_peek.bind fun found => ?_
  cases found with
  | some token => exact settles_fail _
  | none => exact settles_pure _

end TarnBuild
