import TarnBuild.Proofs.Grammar.Expression

/-!
# Whatever is read has a tree

When a parser ends with a value there is a tree that stands for this value,
and the lexemes of the tree are the ones that were passed over.  Each parser
is taken apart along its sequence of smaller parsers, and its tree is put
together from theirs.
-/

namespace TarnBuild

open Text (Span)

namespace Parser

variable {Value Tree : Type} {context : ParseContext} {before after : Cursor}

/-- Whatever the parser accepts is derived by a tree of a given kind. -/
def Sound (context : ParseContext) (parser : Parser Value)
    (lexemes : Tree → List Lexeme) (height : Tree → Nat) (value : Tree → Value) :
    Prop :=
  ∀ before result after, parser context before = .done result after →
    ∃ tree, value tree = result ∧
      Passes context before (lexemes tree) (height tree) after

/-! ## Lists -/

section Lists

variable {item : Parser Value} {lexemes : Tree → List Lexeme} {height : Tree → Nat}
  {value : Tree → Value}

/-- A list that is read has a tree, made of those of its items. -/
theorem sound_commaListUpTo
    (itemSound : Sound context item lexemes height value)
    (close : Mark) (expectation : Expectation) (bound : Nat) :
    Sound context (commaListUpTo item close expectation bound)
      (CommaTree.lexemes lexemes close)
      (fun list => greatest (list.items.map height))
      (fun list => list.items.map value) := by
  induction bound with
  | zero =>
      intro before result after ends
      rcases bind_eq_done_iff.1 ends with ⟨_, middle, first, ends⟩
      rcases bind_eq_done_iff.1 ends with ⟨_, _, closed, ends⟩
      rcases pure_eq_done_iff.1 ends with ⟨rfl, rfl⟩
      rcases itemSound _ _ _ first with ⟨tree, rfl, passesItem⟩
      rcases passes_of_expect closed with ⟨place, passesClose⟩
      exact ⟨.last tree place, rfl, passesItem.append passesClose⟩
  | succ bound ih =>
      intro before result after ends
      rcases bind_eq_done_iff.1 ends with ⟨_, middle, first, ends⟩
      rcases itemSound _ _ _ first with ⟨tree, rfl, passesItem⟩
      rcases eat_bind_ite_eq_done_iff.1 ends with
        ⟨comma, _, passesComma, ends⟩ | ⟨_, ends⟩
      · rcases bind_eq_done_iff.1 ends with ⟨_, _, more, ends⟩
        rcases pure_eq_done_iff.1 ends with ⟨rfl, rfl⟩
        rcases ih _ _ _ more with ⟨others, rfl, passesOthers⟩
        refine ⟨.more tree comma others, rfl, ?_⟩
        simpa [CommaTree.lexemes, CommaTree.items] using
          passesItem.append (passesComma.append passesOthers)
      · rcases bind_eq_done_iff.1 ends with ⟨_, _, closed, ends⟩
        rcases pure_eq_done_iff.1 ends with ⟨rfl, rfl⟩
        rcases passes_of_expect closed with ⟨place, passesClose⟩
        exact ⟨.last tree place, rfl, passesItem.append passesClose⟩

theorem sound_commaList
    (itemSound : Sound context item lexemes height value)
    (close : Mark) (expectation : Expectation) :
    Sound context (commaList item close expectation)
      (CommaTree.lexemes lexemes close)
      (fun list => greatest (list.items.map height))
      (fun list => list.items.map value) :=
  fun before result after ends =>
    sound_commaListUpTo itemSound close expectation before.rest.length before result
      after ends

/-- A list in parentheses that is read has a tree, which is empty if it closes
at once. -/
theorem sound_parenList
    (itemSound : Sound context item lexemes height value) :
    Sound context (parenList item) (ParenTree.lexemes lexemes)
      (fun list => greatest (list.items.map height))
      (fun list => list.items.map value) := by
  intro before result after ends
  rcases eat_bind_ite_eq_done_iff.1 ends with ⟨close, _, passesClose, ends⟩ | ⟨_, ends⟩
  · rcases pure_eq_done_iff.1 ends with ⟨rfl, rfl⟩
    exact ⟨.empty close, rfl, passesClose⟩
  · rcases sound_commaList itemSound _ _ _ _ _ ends with ⟨items, same, passesItems⟩
    exact ⟨.filled items, same, passesItems⟩

end Lists

/-! ## Types -/

/-- A type that is read has a tree, by induction on the bound and by cases on
the first token. -/
theorem sound_typeUpTo (context : ParseContext) (bound : Nat) :
    Sound context (typeUpTo bound) TypeTree.lexemes TypeTree.height TypeTree.type := by
  induction bound with
  | zero =>
      intro before result after ends
      rcases nested_eq_done_iff.1 ends with ⟨_, inner, innerEnds, _⟩
      exact (unexpected_ne_done innerEnds).elim
  | succ bound ih =>
      intro before result after ends
      rcases nested_eq_done_iff.1 ends with ⟨hasRoom, inner, innerEnds, rfl⟩
      rw [bind_of_done (peek_run _ _)] at innerEnds
      generalize isNext : Cursor.token? _ = found at innerEnds
      split at innerEnds
      · next type =>
          rcases bind_eq_done_iff.1 innerEnds with ⟨_, _, advanced, innerEnds⟩
          rcases pure_eq_done_iff.1 innerEnds with ⟨rfl, rfl⟩
          rcases passes_of_advance isNext advanced with ⟨place, passes⟩
          exact ⟨.primitive type place, rfl, passes_of_nested hasRoom passes⟩
      · next name =>
          rcases bind_eq_done_iff.1 innerEnds with ⟨_, _, advanced, innerEnds⟩
          rcases passes_of_advance isNext advanced with ⟨place, passesName⟩
          rcases eat_bind_ite_eq_done_iff.1 innerEnds with
            ⟨less, _, passesLess, innerEnds⟩ | ⟨_, innerEnds⟩
          · rcases bind_eq_done_iff.1 innerEnds with ⟨_, _, listed, innerEnds⟩
            rcases pure_eq_done_iff.1 innerEnds with ⟨rfl, rfl⟩
            rcases sound_commaList ih _ _ _ _ _ listed with
              ⟨arguments, rfl, passesArguments⟩
            refine ⟨.applied name place less arguments, by simp [TypeTree.type], ?_⟩
            simpa [TypeTree.lexemes, TypeTree.height] using
              passes_of_nested hasRoom
                (passesName.append (passesLess.append passesArguments))
          · rcases pure_eq_done_iff.1 innerEnds with ⟨rfl, rfl⟩
            exact ⟨.bare name place, rfl, passes_of_nested hasRoom passesName⟩
      · rcases bind_eq_done_iff.1 innerEnds with ⟨_, _, advanced, innerEnds⟩
        rcases passes_of_advance isNext advanced with ⟨left, passesLeft⟩
        rcases bind_eq_done_iff.1 innerEnds with ⟨_, _, listed, innerEnds⟩
        rcases sound_parenList ih _ _ _ listed with ⟨elements, rfl, passesElements⟩
        rcases eat_bind_ite_eq_done_iff.1 innerEnds with
          ⟨arrow, _, passesArrow, innerEnds⟩ | ⟨_, innerEnds⟩
        · rcases bind_eq_done_iff.1 innerEnds with ⟨_, _, resultEnds, innerEnds⟩
          rcases pure_eq_done_iff.1 innerEnds with ⟨rfl, rfl⟩
          rcases ih _ _ _ resultEnds with ⟨resultTree, rfl, passesResult⟩
          refine ⟨.function left elements arrow resultTree, by simp [TypeTree.type], ?_⟩
          simpa [TypeTree.lexemes, TypeTree.height] using
            passes_of_nested hasRoom (passesLeft.append
              (passesElements.append (passesArrow.append passesResult)))
        · rcases pure_eq_done_iff.1 innerEnds with ⟨rfl, rfl⟩
          refine ⟨.group left elements, TypeTree.type_group left elements, ?_⟩
          simpa [TypeTree.lexemes, TypeTree.height] using
            passes_of_nested hasRoom (passesLeft.append passesElements)
      · exact (unexpected_ne_done innerEnds).elim

theorem sound_type (context : ParseContext) :
    Sound context type TypeTree.lexemes TypeTree.height TypeTree.type :=
  fun before result after ends =>
    sound_typeUpTo context before.rest.length before result after ends

/-! ## Constants and functions -/

/-- Type parameters that are read have a tree, and open no level. -/
theorem sound_typeParameters
    {names : List String}
    (ends : typeParameters context before = .done names after) :
    ∃ tree : TypeParametersTree, tree.names = names ∧
      Passes context before tree.lexemes 0 after := by
  have nameSound : Sound context (upperName .typeParameter) TypeParameterTree.lexemes
      (fun _ => 0) TypeParameterTree.name := by
    intro start name next nameEnds
    rcases passes_of_upperName nameEnds with ⟨place, passes⟩
    exact ⟨⟨name, place⟩, rfl, passes⟩
  rcases eat_bind_ite_eq_done_iff.1 ends with ⟨less, _, passesLess, ends⟩ | ⟨_, ends⟩
  · rcases sound_commaList nameSound _ _ _ _ _ ends with ⟨list, same, passesNames⟩
    have passes := passesLess.append passesNames
    exact ⟨.listed less list, same, passes.rest_eq, passes.depth_eq, by simp⟩
  · rcases pure_eq_done_iff.1 ends with ⟨rfl, rfl⟩
    exact ⟨.absent, rfl, .refl context before⟩

/-- An annotation that is read has a tree, also where it is left out. -/
theorem sound_annotation (context : ParseContext) :
    Sound context annotation AnnotationTree.lexemes AnnotationTree.height
      AnnotationTree.type? := by
  intro before result after ends
  rcases eat_bind_ite_eq_done_iff.1 ends with ⟨colon, _, passesColon, ends⟩ | ⟨_, ends⟩
  · rcases bind_eq_done_iff.1 ends with ⟨_, _, typeEnds, ends⟩
    rcases pure_eq_done_iff.1 ends with ⟨rfl, rfl⟩
    rcases sound_type context _ _ _ typeEnds with ⟨tree, rfl, passesType⟩
    refine ⟨.given colon tree, rfl, ?_⟩
    simpa [AnnotationTree.lexemes, AnnotationTree.height] using
      passesColon.append passesType
  · rcases pure_eq_done_iff.1 ends with ⟨rfl, rfl⟩
    exact ⟨.absent, rfl, .refl context before⟩

theorem sound_constant (context : ParseContext) (visibility : Visibility) :
    Sound context (constant visibility) ConstantTree.lexemes
      (fun tree => tree.annotation.height)
      (ConstantTree.constant context.source visibility) := by
  intro before result after ends
  rcases bind_eq_done_iff.1 ends with ⟨name, _, nameEnds, ends⟩
  rcases bind_eq_done_iff.1 ends with ⟨_, _, annotationEnds, ends⟩
  rcases bind_eq_done_iff.1 ends with ⟨_, _, equalEnds, ends⟩
  rcases bind_eq_done_iff.1 ends with ⟨_, _, valueEnds, ends⟩
  rcases pure_eq_done_iff.1 ends with ⟨rfl, rfl⟩
  rcases passes_of_lowerName nameEnds with ⟨place, passesName⟩
  rcases sound_annotation context _ _ _ annotationEnds with
    ⟨typing, rfl, passesTyping⟩
  rcases passes_of_expect equalEnds with ⟨equal, passesEqual⟩
  rcases exists_tree_of_expression valueEnds with ⟨value, rfl, passesValue⟩
  refine ⟨⟨name, place, typing, equal, value⟩, rfl, ?_⟩
  simpa [ConstantTree.lexemes] using
    passesName.append (passesTyping.append (passesEqual.append passesValue))

theorem sound_parameter (context : ParseContext) :
    Sound context parameter ParameterTree.lexemes ParameterTree.height
      ParameterTree.parameter := by
  intro before result after ends
  rcases bind_eq_done_iff.1 ends with ⟨name, _, nameEnds, ends⟩
  rcases bind_eq_done_iff.1 ends with ⟨_, _, colonEnds, ends⟩
  rcases bind_eq_done_iff.1 ends with ⟨_, _, typeEnds, ends⟩
  rcases pure_eq_done_iff.1 ends with ⟨rfl, rfl⟩
  rcases passes_of_lowerName nameEnds with ⟨place, passesName⟩
  rcases passes_of_expect colonEnds with ⟨colon, passesColon⟩
  rcases sound_type context _ _ _ typeEnds with ⟨tree, rfl, passesType⟩
  refine ⟨⟨name, place, colon, tree⟩, rfl, ?_⟩
  simpa [ParameterTree.lexemes, ParameterTree.height] using
    passesName.append (passesColon.append passesType)

/-- A function that is read has a tree, put together from those of its parts in
their order. -/
theorem sound_function (context : ParseContext) (visibility : Visibility) :
    Sound context (function visibility) FunctionTree.lexemes FunctionTree.height
      (FunctionTree.function context.source visibility) := by
  intro before result after ends
  rcases bind_eq_done_iff.1 ends with ⟨name, _, nameEnds, ends⟩
  rcases bind_eq_done_iff.1 ends with ⟨_, _, typeParametersEnd, ends⟩
  rcases bind_eq_done_iff.1 ends with ⟨_, _, leftEnds, ends⟩
  rcases bind_eq_done_iff.1 ends with ⟨_, _, parametersEnd, ends⟩
  rcases bind_eq_done_iff.1 ends with ⟨_, _, colonEnds, ends⟩
  rcases bind_eq_done_iff.1 ends with ⟨_, _, resultEnds, ends⟩
  rcases bind_eq_done_iff.1 ends with ⟨_, _, equalEnds, ends⟩
  rcases bind_eq_done_iff.1 ends with ⟨_, _, bodyEnds, ends⟩
  rcases pure_eq_done_iff.1 ends with ⟨rfl, rfl⟩
  rcases passes_of_lowerName nameEnds with ⟨place, passesName⟩
  rcases sound_typeParameters typeParametersEnd with
    ⟨typeParameters, rfl, passesTypeParameters⟩
  rcases passes_of_expect leftEnds with ⟨left, passesLeft⟩
  rcases sound_parenList (sound_parameter context) _ _ _ parametersEnd with
    ⟨parameters, rfl, passesParameters⟩
  rcases passes_of_expect colonEnds with ⟨colon, passesColon⟩
  rcases sound_type context _ _ _ resultEnds with ⟨resultTree, rfl, passesResult⟩
  rcases passes_of_expect equalEnds with ⟨equal, passesEqual⟩
  rcases exists_tree_of_expression bodyEnds with ⟨body, rfl, passesBody⟩
  refine ⟨⟨name, place, typeParameters, left, parameters, colon, resultTree, equal, body⟩,
    rfl, ?_⟩
  simpa [FunctionTree.lexemes, FunctionTree.height] using
    passesName.append (passesTypeParameters.append (passesLeft.append
      (passesParameters.append (passesColon.append (passesResult.append
        (passesEqual.append passesBody))))))

/-! ## Members and constructs -/

/-- A token that may be left out is passed over at some place or not at all. -/
theorem passes_of_optional
    {token : Token} {result : Unit}
    (ends : (discard (eat token) : Parser Unit) context before = .done result after) :
    ∃ place, Passes context before (optionalLexeme token place) 0 after := by
  rw [discard_run] at ends
  rcases bind_eq_done_iff.1 ends with ⟨eaten, _, ate, ends⟩
  rcases pure_eq_done_iff.1 ends with ⟨_, rfl⟩
  rcases eat_eq_done_iff.1 ate with ⟨_, place, passes⟩ | ⟨_, rfl, _⟩
  · exact ⟨some place, passes⟩
  · exact ⟨none, .refl context _⟩

/-- A member that is read has a tree, with the word and the semicolon that may
be left out. -/
theorem sound_ownMember (context : ParseContext) :
    Sound context ownMember OwnMemberTree.lexemes OwnMemberTree.height
      (OwnMemberTree.member context.source) := by
  intro before result after ends
  rcases bind_eq_done_iff.1 ends with ⟨eaten, middle, ate, ends⟩
  have hidden : ∃ word, Passes context before
      (optionalLexeme (.keyword .privateWord) word) 0 middle ∧ word.isSome = eaten := by
    rcases eat_eq_done_iff.1 ate with ⟨rfl, place, passes⟩ | ⟨rfl, rfl, _⟩
    · exact ⟨some place, passes, rfl⟩
    · exact ⟨none, .refl context _, rfl⟩
  rcases hidden with ⟨word, passesWord, rfl⟩
  rw [bind_of_done (peek_run _ _)] at ends
  generalize isNext : Cursor.token? _ = found at ends
  split at ends
  · rcases bind_eq_done_iff.1 ends with ⟨_, _, advanced, ends⟩
    rcases bind_eq_done_iff.1 ends with ⟨_, _, constantEnds, ends⟩
    rcases bind_eq_done_iff.1 ends with ⟨_, _, semicolonEnds, ends⟩
    rcases pure_eq_done_iff.1 ends with ⟨rfl, rfl⟩
    rcases passes_of_advance isNext advanced with ⟨val, passesVal⟩
    rcases sound_constant context _ _ _ _ constantEnds with ⟨tree, rfl, passesConstant⟩
    rcases passes_of_optional semicolonEnds with ⟨semicolon, passesSemicolon⟩
    refine ⟨⟨word, .constant val tree, semicolon⟩, rfl, ?_⟩
    simpa [OwnMemberTree.lexemes, OwnMemberTree.height, DeclarationTree.lexemes,
      DeclarationTree.height] using
        passesWord.append (passesVal.append (passesConstant.append passesSemicolon))
  · rcases bind_eq_done_iff.1 ends with ⟨_, _, advanced, ends⟩
    rcases bind_eq_done_iff.1 ends with ⟨_, _, functionEnds, ends⟩
    rcases bind_eq_done_iff.1 ends with ⟨_, _, semicolonEnds, ends⟩
    rcases pure_eq_done_iff.1 ends with ⟨rfl, rfl⟩
    rcases passes_of_advance isNext advanced with ⟨place, passesPlace⟩
    rcases sound_function context _ _ _ _ functionEnds with ⟨tree, rfl, passesFunction⟩
    rcases passes_of_optional semicolonEnds with ⟨semicolon, passesSemicolon⟩
    refine ⟨⟨word, .function place tree, semicolon⟩, rfl, ?_⟩
    simpa [OwnMemberTree.lexemes, OwnMemberTree.height, DeclarationTree.lexemes,
      DeclarationTree.height] using
        passesWord.append (passesPlace.append (passesFunction.append passesSemicolon))
  · exact (unexpected_ne_done ends).elim

/-- Members that are read have a tree, if the constructs among them have one. -/
theorem sound_membersUpTo
    {inner : Parser Construct}
    (innerSound : Sound context inner ConstructTree.lexemes ConstructTree.height
      (ConstructTree.construct context.source))
    (bound : Nat) :
    Sound context (membersUpTo inner bound) MembersTree.lexemes MembersTree.height
      (MembersTree.members context.source) := by
  induction bound with
  | zero =>
      intro before result after ends
      exact (unexpected_ne_done ends).elim
  | succ bound ih =>
      intro before result after ends
      -- The two words that introduce a construct lead into the same branch.
      have nestedSound
          (nestedEnds : (inner >>= fun first =>
            membersUpTo inner bound >>= fun others => pure (.nested first :: others))
              context before = .done result after) :
          ∃ tree : MembersTree, tree.members context.source = result ∧
            Passes context before tree.lexemes tree.height after := by
        rcases bind_eq_done_iff.1 nestedEnds with ⟨_, _, firstEnds, nestedEnds⟩
        rcases bind_eq_done_iff.1 nestedEnds with ⟨_, _, othersEnd, nestedEnds⟩
        rcases pure_eq_done_iff.1 nestedEnds with ⟨rfl, rfl⟩
        rcases innerSound _ _ _ firstEnds with ⟨construct, rfl, passesConstruct⟩
        rcases ih _ _ _ othersEnd with ⟨others, rfl, passesOthers⟩
        exact ⟨.nested construct others, rfl, passesConstruct.append passesOthers⟩
      rw [membersUpTo, bind_of_done (peek_run _ _)] at ends
      generalize isNext : Cursor.token? _ = found at ends
      split at ends
      · rcases bind_eq_done_iff.1 ends with ⟨_, _, advanced, ends⟩
        rcases pure_eq_done_iff.1 ends with ⟨rfl, rfl⟩
        rcases passes_of_advance isNext advanced with ⟨right, passes⟩
        exact ⟨.close right, rfl, passes⟩
      · exact nestedSound ends
      · exact nestedSound ends
      · rcases bind_eq_done_iff.1 ends with ⟨_, _, firstEnds, ends⟩
        rcases bind_eq_done_iff.1 ends with ⟨_, _, othersEnd, ends⟩
        rcases pure_eq_done_iff.1 ends with ⟨rfl, rfl⟩
        rcases sound_ownMember context _ _ _ firstEnds with ⟨member, rfl, passesMember⟩
        rcases ih _ _ _ othersEnd with ⟨others, rfl, passesOthers⟩
        exact ⟨.own member others, rfl, passesMember.append passesOthers⟩
      · exact (unexpected_ne_done ends).elim

theorem passes_of_constructKind
    {kind : ConstructKind}
    (ends : constructKind context before = .done kind after) :
    ∃ place, Passes context before [⟨.keyword kind.keyword, place⟩] 0 after := by
  rw [constructKind, bind_of_done (peek_run _ _)] at ends
  generalize isNext : Cursor.token? _ = found at ends
  split at ends
  · rcases bind_eq_done_iff.1 ends with ⟨_, _, advanced, ends⟩
    rcases pure_eq_done_iff.1 ends with ⟨rfl, rfl⟩
    exact passes_of_advance isNext advanced
  · rcases bind_eq_done_iff.1 ends with ⟨_, _, advanced, ends⟩
    rcases pure_eq_done_iff.1 ends with ⟨rfl, rfl⟩
    exact passes_of_advance isNext advanced
  · exact (unexpected_ne_done ends).elim

/-- A construct that is read has a tree, which is higher by one than its
members. -/
theorem sound_constructUpTo (context : ParseContext) (bound : Nat) :
    Sound context (constructUpTo bound) ConstructTree.lexemes ConstructTree.height
      (ConstructTree.construct context.source) := by
  induction bound with
  | zero =>
      intro before result after ends
      rcases nested_eq_done_iff.1 ends with ⟨_, inner, innerEnds, _⟩
      exact (unexpected_ne_done innerEnds).elim
  | succ bound ih =>
      intro before result after ends
      rcases nested_eq_done_iff.1 ends with ⟨hasRoom, inner, innerEnds, rfl⟩
      rcases bind_eq_done_iff.1 innerEnds with ⟨kind, _, kindEnds, innerEnds⟩
      rcases bind_eq_done_iff.1 innerEnds with ⟨name, _, nameEnds, innerEnds⟩
      rcases bind_eq_done_iff.1 innerEnds with ⟨_, _, typeParametersEnd, innerEnds⟩
      rcases bind_eq_done_iff.1 innerEnds with ⟨_, _, leftEnds, innerEnds⟩
      rcases bind_eq_done_iff.1 innerEnds with ⟨_, _, membersEnd, innerEnds⟩
      rcases pure_eq_done_iff.1 innerEnds with ⟨rfl, rfl⟩
      rcases passes_of_constructKind kindEnds with ⟨word, passesKind⟩
      rcases passes_of_upperName nameEnds with ⟨place, passesName⟩
      rcases sound_typeParameters typeParametersEnd with
        ⟨typeParameters, rfl, passesTypeParameters⟩
      rcases passes_of_expect leftEnds with ⟨left, passesLeft⟩
      rcases sound_membersUpTo ih _ _ _ _ membersEnd with ⟨members, rfl, passesMembers⟩
      refine ⟨.mk ⟨kind, word, name, place, typeParameters, left⟩ members,
        ConstructTree.construct_mk _ _ _, ?_⟩
      simpa [ConstructTree.lexemes, ConstructTree.height, HeadTree.lexemes] using
        passes_of_nested hasRoom (passesKind.append (passesName.append
          (passesTypeParameters.append (passesLeft.append passesMembers))))

/-! ## Units -/

/-- What is read one by one after a token has a list of trees. -/
theorem sound_repeatAfter
    {token : Token} {item : Parser Value} {lexemes : Tree → List Lexeme}
    {height : Tree → Nat} {value : Tree → Value}
    (itemSound : ∀ start middle before result after,
      Passes context start [⟨token, middle⟩] 0 before →
      item context before = .done result after →
      ∃ tree, value tree = result ∧
        Passes context start (lexemes tree) (height tree) after)
    (bound : Nat) :
    Sound context (repeatAfter token item bound)
      (fun trees : List Tree => trees.flatMap lexemes)
      (fun trees => greatest (trees.map height)) (fun trees => trees.map value) := by
  induction bound with
  | zero =>
      intro before result after ends
      rcases pure_eq_done_iff.1 ends with ⟨rfl, rfl⟩
      exact ⟨[], rfl, .refl context before⟩
  | succ bound ih =>
      intro before result after ends
      rcases eat_bind_ite_eq_done_iff.1 ends with
        ⟨place, _, passesToken, ends⟩ | ⟨_, ends⟩
      · rcases bind_eq_done_iff.1 ends with ⟨_, _, firstEnds, ends⟩
        rcases bind_eq_done_iff.1 ends with ⟨_, _, othersEnd, ends⟩
        rcases pure_eq_done_iff.1 ends with ⟨rfl, rfl⟩
        rcases itemSound _ _ _ _ _ passesToken firstEnds with ⟨tree, rfl, passesFirst⟩
        rcases ih _ _ _ othersEnd with ⟨trees, rfl, passesOthers⟩
        exact ⟨tree :: trees, rfl, by simpa using passesFirst.append passesOthers⟩
      · rcases pure_eq_done_iff.1 ends with ⟨rfl, rfl⟩
        exact ⟨[], rfl, .refl context before⟩

theorem sound_imports (context : ParseContext) :
    Sound context imports (fun trees : List ImportTree => trees.flatMap ImportTree.lexemes)
      (fun trees => greatest (trees.map fun _ => 0))
      (fun trees => trees.map ImportTree.name) := by
  intro before result after ends
  refine sound_repeatAfter ?_ before.rest.length before result after ends
  intro start word middle name next passesWord ends
  rcases bind_eq_done_iff.1 ends with ⟨_, _, nameEnds, ends⟩
  rcases bind_eq_done_iff.1 ends with ⟨_, _, semicolonEnds, ends⟩
  rcases pure_eq_done_iff.1 ends with ⟨rfl, rfl⟩
  rcases passes_of_upperName nameEnds with ⟨place, passesName⟩
  rcases passes_of_optional semicolonEnds with ⟨semicolon, passesSemicolon⟩
  refine ⟨⟨word, _, place, semicolon⟩, rfl, ?_⟩
  simpa [ImportTree.lexemes] using
    passesWord.append (passesName.append passesSemicolon)

/-- A unit that is read is derived by a tree of all lexemes. -/
theorem exists_tree_of_unit
    {lexemes : List Lexeme} {depth : Nat} {result : CompilationUnit}
    (ends : unit context ⟨lexemes, depth⟩ = .done result after) :
    ∃ tree : UnitTree, tree.unit context.source = result ∧ tree.lexemes = lexemes ∧
      context.HasRoom depth tree.height := by
  rcases bind_eq_done_iff.1 ends with ⟨_, _, importsEnd, ends⟩
  rcases bind_eq_done_iff.1 ends with ⟨_, middle, bodyEnds, ends⟩
  rcases sound_imports context _ _ _ importsEnd with ⟨imports, rfl, passesImports⟩
  rcases sound_constructUpTo context _ _ _ _ bodyEnds with ⟨body, rfl, passesBody⟩
  have passes := passesImports.append passesBody
  rw [bind_of_done (peek_run _ _)] at ends
  generalize isNext : middle.token? = found at ends
  split at ends
  · cases ends
  · rcases pure_eq_done_iff.1 ends with ⟨rfl, rfl⟩
    have atEnd : middle.rest = [] := by simpa [Cursor.token?] using isNext
    refine ⟨⟨imports, body⟩, rfl, ?_, (ParseContext.hasRoom_max.1 passes.room).2⟩
    simpa [UnitTree.lexemes, atEnd] using passes.rest_eq.symm

end Parser

end TarnBuild
