import TarnBuild.Proofs.Grammar.Tree

/-!
# What stands in a construct

The expressions and the types of a construct are those of its own members and
those of the constructs inside it, at any depth.  A derivation tree has them
in the same way, and each stands in the tree as a run of consecutive lexemes
and is no higher than the tree.
-/

namespace TarnBuild

/-! ## Constructs inside constructs -/

namespace Construct

mutual

/-- A construct and all constructs inside it, at any depth. -/
def within : Construct → List Construct
  | ⟨name, kind, typeParameters, constants, functions, nested⟩ =>
      ⟨name, kind, typeParameters, constants, functions, nested⟩ :: listWithin nested

/-- The constructs in a list and all constructs inside them. -/
def listWithin : List Construct → List Construct
  | [] => []
  | construct :: rest => within construct ++ listWithin rest

end

/-- The texts of all values and bodies in a construct, at any depth. -/
def expressions (construct : Construct) : List String :=
  construct.within.flatMap fun inner =>
    inner.constants.map Constant.value ++ inner.functions.map Function.body

end Construct

/-- The types that a function is declared with. -/
def Function.types (function : Function) : List TypeExpr :=
  function.parameters.map Parameter.annotation ++ [function.result]

/-- The types of all annotations, parameters and results in a construct, at any
depth. -/
def Construct.types (construct : Construct) : List TypeExpr :=
  construct.within.flatMap fun inner =>
    inner.constants.filterMap Constant.annotation ++ inner.functions.flatMap Function.types

mutual

/-- The tree of a construct and the trees of all constructs inside it. -/
def ConstructTree.within : ConstructTree → List ConstructTree
  | .mk head members => .mk head members :: members.within

/-- The trees of the nested constructs among some members, at any depth. -/
def MembersTree.within : MembersTree → List ConstructTree
  | .close _ => []
  | .own _ others => others.within
  | .nested construct others => construct.within ++ others.within

end

mutual

/-- The constructs inside a construct are those of the trees inside its tree. -/
theorem ConstructTree.within_construct (source : List Char) :
    ∀ tree : ConstructTree,
      (tree.construct source).within = tree.within.map (ConstructTree.construct source)
  | .mk head members => by
      rw [ConstructTree.construct, Construct.within, members.listWithin_constructs source,
        ConstructTree.within, List.map_cons, ConstructTree.construct]

/-- The case of `ConstructTree.within_construct` for the members of a construct. -/
theorem MembersTree.listWithin_constructs (source : List Char) :
    ∀ tree : MembersTree, Construct.listWithin (tree.constructs source) =
      tree.within.map (ConstructTree.construct source)
  | .close _ => rfl
  | .own _ others => others.listWithin_constructs source
  | .nested construct others => by
      rw [MembersTree.constructs, Construct.listWithin, construct.within_construct source,
        others.listWithin_constructs source, MembersTree.within, List.map_append]

end

/-! ## Contents of trees -/

/-- The members of a construct, with its closing brace. -/
def ConstructTree.members : ConstructTree → MembersTree
  | .mk _ members => members

/-- The constants and functions among some members, in their order. -/
def MembersTree.owns : MembersTree → List OwnMemberTree
  | .close _ => []
  | .own member others => member :: others.owns
  | .nested _ others => others.owns

namespace DeclarationTree

/-- The value of a constant, or the body of a function. -/
def expression : DeclarationTree → ExpressionTree
  | constant _ tree => tree.value
  | function _ tree => tree.body

/-- The types that a declaration writes, in their order. -/
def types : DeclarationTree → List TypeTree
  | constant _ ⟨_, _, .absent, _, _⟩ => []
  | constant _ ⟨_, _, .given _ type, _, _⟩ => [type]
  | function _ tree => tree.parameters.items.map ParameterTree.type ++ [tree.result]

end DeclarationTree

namespace ConstructTree

/-- The expressions of a construct, its own and those inside it. -/
def expressions (tree : ConstructTree) : List ExpressionTree :=
  tree.within.flatMap fun inner =>
    inner.members.owns.map fun member => member.declaration.expression

/-- The types that a construct writes, its own and those inside it. -/
def types (tree : ConstructTree) : List TypeTree :=
  tree.within.flatMap fun inner =>
    inner.members.owns.flatMap fun member => member.declaration.types

end ConstructTree

/-- Constants and functions are kept apart in a construct, so its expressions
are those of its members in another order. -/
theorem MembersTree.expressions_perm (source : List Char) :
    ∀ tree : MembersTree,
      ((tree.constants source).map Constant.value ++
        (tree.functions source).map Function.body).Perm
          (tree.owns.map fun member => member.declaration.expression.text source)
  | .close _ => .nil
  | .own ⟨_, .constant _ _, _⟩ others => (others.expressions_perm source).cons _
  | .own ⟨_, .function _ _, _⟩ others =>
      List.perm_middle.trans ((others.expressions_perm source).cons _)
  | .nested _ others => others.expressions_perm source

/-- The annotations of the constants and the types of the functions are the
types of the members, in another order. -/
theorem MembersTree.types_perm (source : List Char) :
    ∀ tree : MembersTree,
      ((tree.constants source).filterMap Constant.annotation ++
        (tree.functions source).flatMap Function.types).Perm
          (tree.owns.flatMap fun member => member.declaration.types.map TypeTree.type)
  | .close _ => .nil
  | .own ⟨_, .constant _ ⟨_, _, .absent, _, _⟩, _⟩ others => others.types_perm source
  | .own ⟨_, .constant _ ⟨_, _, .given _ _, _, _⟩, _⟩ others => (others.types_perm source).cons _
  | .own ⟨word, .function _ tree, _⟩ others => by
      have ownTypes : (tree.function source (visibilityOf word)).types =
          (tree.parameters.items.map ParameterTree.type ++ [tree.result]).map TypeTree.type := by
        simp [Function.types, FunctionTree.function, ParameterTree.parameter]
      rw [MembersTree.constants, MembersTree.functions, List.flatMap_cons, ownTypes]
      exact (List.perm_append_comm_assoc _ _ _).trans ((others.types_perm source).append_left _)
  | .nested _ others => others.types_perm source

namespace ConstructTree

/-- The expressions of a construct are those of its tree, each once. -/
theorem expressions_perm (source : List Char) (tree : ConstructTree) :
    (tree.construct source).expressions.Perm
      (tree.expressions.map (ExpressionTree.text source)) := by
  rw [Construct.expressions, within_construct, expressions, List.flatMap_map, List.map_flatMap]
  refine List.Perm.flatMap_left _ fun inner _ => ?_
  rcases inner with ⟨head, members⟩
  rw [construct, List.map_map]
  exact members.expressions_perm source

/-- The types in a construct are those of its tree, each once. -/
theorem types_perm (source : List Char) (tree : ConstructTree) :
    (tree.construct source).types.Perm (tree.types.map TypeTree.type) := by
  rw [Construct.types, within_construct, types, List.flatMap_map, List.map_flatMap]
  refine List.Perm.flatMap_left _ fun inner _ => ?_
  rcases inner with ⟨head, members⟩
  rw [construct, List.map_flatMap]
  exact members.types_perm source

end ConstructTree

/-! ## Parts of trees -/

/-- Some lexemes stand together among others, and no more constructs and types
are open at once in them. -/
structure IsPart (part : List Lexeme) (height : Nat) (whole : List Lexeme) (wholeHeight : Nat) :
    Prop where
  isInfix : part <:+: whole
  height_le : height ≤ wholeHeight

namespace IsPart

variable {part middle whole : List Lexeme} {height middleHeight wholeHeight : Nat}

theorem refl (lexemes : List Lexeme) (height : Nat) : IsPart lexemes height lexemes height :=
  ⟨List.infix_rfl, Nat.le_refl _⟩

theorem trans (inner : IsPart part height middle middleHeight)
    (outer : IsPart middle middleHeight whole wholeHeight) :
    IsPart part height whole wholeHeight :=
  ⟨inner.isInfix.trans outer.isInfix, Nat.le_trans inner.height_le outer.height_le⟩

theorem appendRight (isPart : IsPart part height middle middleHeight)
    (others : List Lexeme) (otherHeight : Nat) :
    IsPart part height (middle ++ others) (max middleHeight otherHeight) :=
  isPart.trans ⟨(List.prefix_append _ _).isInfix, Nat.le_max_left _ _⟩

theorem appendLeft (isPart : IsPart part height middle middleHeight)
    (others : List Lexeme) (otherHeight : Nat) :
    IsPart part height (others ++ middle) (max otherHeight middleHeight) :=
  isPart.trans ⟨(List.suffix_append _ _).isInfix, Nat.le_max_right _ _⟩

end IsPart

/-- An item of a list is a part of the list. -/
theorem CommaTree.isPart_of_mem
    {Item : Type} {spell : Item → List Lexeme} {height : Item → Nat} {mark : Mark}
    {list : CommaTree Item} {item : Item}
    (isItem : item ∈ list.items) :
    IsPart (spell item) (height item) (list.lexemes spell mark)
      (greatest (list.items.map height)) := by
  induction list with
  | last only close =>
      rcases List.mem_singleton.1 isItem with rfl
      exact (IsPart.refl _ _).appendRight _ _
  | more first comma others ih =>
      rw [items, List.map_cons, greatest_cons, lexemes]
      rcases List.mem_cons.1 isItem with rfl | isOther
      · exact (IsPart.refl _ _).appendRight _ _
      · rw [List.append_cons]
        exact (ih isOther).appendLeft _ _

theorem ParenTree.isPart_of_mem
    {Item : Type} {spell : Item → List Lexeme} {height : Item → Nat}
    {list : ParenTree Item} {item : Item}
    (isItem : item ∈ list.items) :
    IsPart (spell item) (height item) (list.lexemes spell)
      (greatest (list.items.map height)) := by
  cases list with
  | empty close => cases isItem
  | filled list => exact CommaTree.isPart_of_mem isItem

namespace DeclarationTree

/-- The expression of a declaration is its end, and opens no level. -/
theorem isPart_expression (tree : DeclarationTree) :
    IsPart tree.expression.lexemes 0 tree.lexemes tree.height := by
  refine ⟨List.IsSuffix.isInfix ?_, Nat.zero_le _⟩
  cases tree with
  | constant word tree =>
      exact ⟨⟨.keyword .valWord, word⟩ :: ⟨.lower tree.name, tree.place⟩ ::
        (tree.annotation.lexemes ++ [⟨.mark .equal, tree.equal⟩]), by
          simp [lexemes, ConstantTree.lexemes, expression]⟩
  | function word tree =>
      exact ⟨⟨.keyword .functionWord, word⟩ :: ⟨.lower tree.name, tree.place⟩ ::
        (tree.typeParameters.lexemes ++ ⟨.mark .leftParen, tree.left⟩ ::
          (tree.parameters.lexemes ParameterTree.lexemes ++ ⟨.mark .colon, tree.colon⟩ ::
            (tree.result.lexemes ++ [⟨.mark .equal, tree.equal⟩]))), by
          simp [lexemes, FunctionTree.lexemes, expression]⟩

/-- Every type that a declaration writes is a part of it. -/
theorem isPart_of_mem_types :
    ∀ {tree : DeclarationTree} {type : TypeTree}, type ∈ tree.types →
      IsPart type.lexemes type.height tree.lexemes tree.height
  | constant _ ⟨_, _, .absent, _, _⟩, _, isType => nomatch isType
  | constant word ⟨name, place, .given colon only, equal, value⟩, type, isType => by
      rcases List.mem_singleton.1 isType with rfl
      refine ⟨⟨[⟨.keyword .valWord, word⟩, ⟨.lower name, place⟩, ⟨.mark .colon, colon⟩],
        ⟨.mark .equal, equal⟩ :: value.lexemes, ?_⟩, Nat.le_refl _⟩
      simp [lexemes, ConstantTree.lexemes, AnnotationTree.lexemes]
  | function word tree, type, isType => by
      rw [height, FunctionTree.height]
      rcases List.mem_append.1 isType with isParameter | isResult
      · rcases List.mem_map.1 isParameter with ⟨parameter, isItem, rfl⟩
        have inParameter : IsPart parameter.type.lexemes parameter.type.height
            parameter.lexemes parameter.height :=
          ⟨(List.suffix_append [_, _] _).isInfix, Nat.le_refl _⟩
        refine inParameter.trans ((ParenTree.isPart_of_mem isItem).trans
          ⟨⟨⟨.keyword .functionWord, word⟩ :: ⟨.lower tree.name, tree.place⟩ ::
            (tree.typeParameters.lexemes ++ [⟨.mark .leftParen, tree.left⟩]),
            ⟨.mark .colon, tree.colon⟩ :: (tree.result.lexemes ++
              ⟨.mark .equal, tree.equal⟩ :: tree.body.lexemes), ?_⟩, Nat.le_max_left _ _⟩)
        simp [lexemes, FunctionTree.lexemes]
      · rcases List.mem_singleton.1 isResult with rfl
        refine ⟨⟨⟨.keyword .functionWord, word⟩ :: ⟨.lower tree.name, tree.place⟩ ::
          (tree.typeParameters.lexemes ++ ⟨.mark .leftParen, tree.left⟩ ::
            (tree.parameters.lexemes ParameterTree.lexemes ++ [⟨.mark .colon, tree.colon⟩])),
          ⟨.mark .equal, tree.equal⟩ :: tree.body.lexemes, ?_⟩, Nat.le_max_right _ _⟩
        simp [lexemes, FunctionTree.lexemes]

end DeclarationTree

theorem OwnMemberTree.isPart_declaration (tree : OwnMemberTree) :
    IsPart tree.declaration.lexemes tree.declaration.height tree.lexemes tree.height :=
  ⟨⟨_, _, List.append_assoc _ _ _⟩, Nat.le_refl _⟩

theorem MembersTree.isPart_of_mem_owns :
    ∀ {tree : MembersTree} {member : OwnMemberTree}, member ∈ tree.owns →
      IsPart member.lexemes member.height tree.lexemes tree.height
  | .close _, _, isMember => nomatch isMember
  | .own first others, member, isMember => by
      rw [MembersTree.lexemes, MembersTree.height]
      rcases List.mem_cons.1 isMember with rfl | isLater
      · exact (IsPart.refl _ _).appendRight _ _
      · exact (isPart_of_mem_owns isLater).appendLeft _ _
  | .nested construct others, member, isMember => by
      rw [MembersTree.lexemes, MembersTree.height]
      have isOther : member ∈ others.owns := isMember
      exact (isPart_of_mem_owns isOther).appendLeft _ _

mutual

/-- A construct at any depth is a part of the construct that it is in. -/
theorem ConstructTree.isPart_of_mem_within :
    ∀ tree : ConstructTree, ∀ inner ∈ tree.within,
      IsPart inner.lexemes inner.height tree.lexemes tree.height
  | .mk head members, inner, isWithin => by
      rw [ConstructTree.within] at isWithin
      rcases List.mem_cons.1 isWithin with rfl | isInside
      · exact .refl _ _
      · have isPart := members.isPart_of_mem_within inner isInside
        rw [ConstructTree.lexemes, ConstructTree.height]
        exact isPart.trans ⟨(List.suffix_append _ _).isInfix, Nat.le_succ _⟩

theorem MembersTree.isPart_of_mem_within :
    ∀ tree : MembersTree, ∀ inner ∈ tree.within,
      IsPart inner.lexemes inner.height tree.lexemes tree.height
  | .close _, _, isWithin => nomatch isWithin
  | .own member others, inner, isWithin => by
      rw [MembersTree.lexemes, MembersTree.height]
      exact (others.isPart_of_mem_within inner isWithin).appendLeft _ _
  | .nested construct others, inner, isWithin => by
      rw [MembersTree.within] at isWithin
      rw [MembersTree.lexemes, MembersTree.height]
      rcases List.mem_append.1 isWithin with isInside | isLater
      · exact (construct.isPart_of_mem_within inner isInside).appendRight _ _
      · exact (others.isPart_of_mem_within inner isLater).appendLeft _ _

end

namespace ConstructTree

/-- The members of a construct are a part of it, one level lower than the whole. -/
theorem isPart_members (tree : ConstructTree) :
    IsPart tree.members.lexemes (tree.members.height + 1) tree.lexemes tree.height := by
  rcases tree with ⟨head, members⟩
  rw [lexemes, height]
  exact ⟨(List.suffix_append _ _).isInfix, Nat.le_refl _⟩

/-- An expression in a construct stands in it as a run of lexemes. -/
theorem infix_of_mem_expressions {tree : ConstructTree} {expression : ExpressionTree}
    (isIn : expression ∈ tree.expressions) :
    expression.lexemes <:+: tree.lexemes := by
  rcases List.mem_flatMap.1 isIn with ⟨inner, isWithin, isOwn⟩
  rcases List.mem_map.1 isOwn with ⟨member, isMember, rfl⟩
  have inMembers := member.declaration.isPart_expression.trans
    (member.isPart_declaration.trans (MembersTree.isPart_of_mem_owns isMember))
  exact inMembers.isInfix.trans
    (inner.isPart_members.trans (tree.isPart_of_mem_within inner isWithin)).isInfix

/-- A type in a construct stands in it as a run of lexemes, and one level lower
at least. -/
theorem isPart_of_mem_types {tree : ConstructTree} {type : TypeTree}
    (isIn : type ∈ tree.types) :
    IsPart type.lexemes (type.height + 1) tree.lexemes tree.height := by
  rcases List.mem_flatMap.1 isIn with ⟨inner, isWithin, isOwn⟩
  rcases List.mem_flatMap.1 isOwn with ⟨member, isMember, isType⟩
  have inMembers := (DeclarationTree.isPart_of_mem_types isType).trans
    (member.isPart_declaration.trans (MembersTree.isPart_of_mem_owns isMember))
  have inTree := inner.isPart_members.trans (tree.isPart_of_mem_within inner isWithin)
  exact ⟨inMembers.isInfix.trans inTree.isInfix,
    Nat.le_trans (Nat.succ_le_succ inMembers.height_le) inTree.height_le⟩

end ConstructTree

end TarnBuild
