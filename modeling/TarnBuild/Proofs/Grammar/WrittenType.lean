import TarnBuild.Proofs.Grammar.CapturedText
import TarnBuild.Proofs.Token.Spelling

/-!
# Types as they are written out

The written form of a type is read back to the type.  This needs names that
are names of types, and tuples of two elements or more, since parentheses
around fewer elements mean something else; and the types that are open at once
in it must fit the nesting limit.  All types that a unit is read with are of
this kind.
-/

namespace TarnBuild

open Text (Span byteLength)

/-- A type that can be declared: each name in it is the name of a type, and each
tuple has at least two elements. -/
inductive TypeExpr.IsDeclarable : TypeExpr → Prop where
  | primitive (type : Primitive) : IsDeclarable (.primitive type)
  | named (name : String) (arguments : List TypeExpr)
      (isName : name.toList ∈ Pattern.name isUpperStart)
      (areDeclarable : ∀ argument ∈ arguments, IsDeclarable argument) :
      IsDeclarable (.named name arguments)
  | tuple (elements : List TypeExpr) (isTuple : 2 ≤ elements.length)
      (areDeclarable : ∀ element ∈ elements, IsDeclarable element) :
      IsDeclarable (.tuple elements)
  | function (parameters : List TypeExpr) (result : TypeExpr)
      (areDeclarable : ∀ parameter ∈ parameters, IsDeclarable parameter)
      (isDeclarable : IsDeclarable result) :
      IsDeclarable (.function parameters result)

/-! ## From types to trees -/

/-- The written form of a type is read to a tree for the type at every offset,
and the tree opens no more types at once. -/
def TypeExpr.IsReadBack (type : TypeExpr) : Prop :=
  ∀ offset, ∃ tree : TypeTree, tree.type = type ∧ tree.height = type.height ∧
    Spells offset type.render.toList tree.lexemes

/-- One or more types with a mark after them are read back. -/
theorem exists_commaTree
    {types : List TypeExpr} (nonempty : types ≠ [])
    (areReadBack : ∀ type ∈ types, type.IsReadBack) (close : Mark) (offset : Nat) :
    ∃ list : CommaTree TypeTree, list.items.map TypeTree.type = types ∧
      greatest (list.items.map TypeTree.height) = TypeExpr.heightList types ∧
      Spells offset ((TypeExpr.renderList types).toList ++ close.text)
        (list.lexemes TypeTree.lexemes close) := by
  induction types generalizing offset with
  | nil => exact (nonempty rfl).elim
  | cons type types ih =>
      rcases List.forall_mem_cons.1 areReadBack with ⟨isReadBack, areOthersReadBack⟩
      rcases isReadBack offset with ⟨tree, rfl, height_eq, spells⟩
      let stop := offset + byteLength tree.type.render.toList
      cases types with
      | nil =>
          have closed := Spells.mark close stop
          refine ⟨.last tree (.ofText stop close.text), rfl, ?_, ?_⟩
          · simp [CommaTree.items, TypeExpr.heightList, height_eq]
          · exact spells.append closed (endsName_mark close)
      | cons next rest =>
          rcases ih (by simp) areOthersReadBack (stop + byteLength Mark.comma.text + 1) with
            ⟨others, others_eq, otherHeight_eq, othersSpell⟩
          refine ⟨.more tree (.ofText stop Mark.comma.text) others, ?_, ?_, ?_⟩
          · rw [CommaTree.items, List.map_cons, others_eq]
          · rw [CommaTree.items, List.map_cons, greatest_cons, otherHeight_eq, height_eq]
            rfl
          · have separated := Spells.mark_append .comma othersSpell.space_append
            have whole := spells.append separated (endsName_mark_append .comma _)
            rw [TypeExpr.renderList, CommaTree.lexemes]
            simpa [Mark.text] using whole

/-- Any number of types with a closing parenthesis after them are read back. -/
theorem exists_parenTree
    {types : List TypeExpr} (areReadBack : ∀ type ∈ types, type.IsReadBack) (offset : Nat) :
    ∃ list : ParenTree TypeTree, list.items.map TypeTree.type = types ∧
      greatest (list.items.map TypeTree.height) = TypeExpr.heightList types ∧
      Spells offset ((TypeExpr.renderList types).toList ++ Mark.rightParen.text)
        (list.lexemes TypeTree.lexemes) := by
  cases types with
  | nil => exact ⟨.empty _, rfl, rfl, Spells.mark .rightParen offset⟩
  | cons type types =>
      rcases exists_commaTree (by simp) areReadBack .rightParen offset with
        ⟨list, types_eq, height_eq, spells⟩
      exact ⟨.filled list, types_eq, height_eq, spells⟩

/-- Two types or more in parentheses are a tuple. -/
theorem TypeExpr.group_of_two_le {elements : List TypeExpr} (isTuple : 2 ≤ elements.length) :
    group elements = .tuple elements := by
  match elements, isTuple with
  | _ :: _ :: _, _ => rfl

/-- A type that can be declared is read back from what is displayed of it. -/
theorem TypeExpr.IsDeclarable.isReadBack {type : TypeExpr} (isDeclarable : type.IsDeclarable) :
    type.IsReadBack := by
  induction isDeclarable with
  | primitive type =>
      intro offset
      exact ⟨.primitive type (.ofText offset type.word.toList), rfl, rfl,
        Spells.primitive type offset⟩
  | named name arguments isName _ ih =>
      intro offset
      have nameSpells := Spells.upper isName offset
      rw [String.ofList_toList] at nameSpells
      let stop := offset + byteLength name.toList
      cases arguments with
      | nil => exact ⟨.bare name (.ofText offset name.toList), rfl, rfl, nameSpells⟩
      | cons argument arguments =>
          rcases exists_commaTree (by simp) ih .greater (stop + byteLength Mark.less.text) with
            ⟨list, types_eq, height_eq, spells⟩
          refine ⟨.applied name (.ofText offset name.toList) (.ofText stop Mark.less.text) list,
            ?_, ?_, ?_⟩
          · rw [TypeTree.type, TypeTree.commaTypes_eq, types_eq]
          · rw [TypeTree.height, TypeTree.commaHeight_eq, height_eq, height]
          · have whole := nameSpells.append (.mark_append .less spells)
              (endsName_mark_append .less _)
            rw [render, TypeTree.lexemes, TypeTree.commaLexemes_eq]
            simpa [Mark.text] using whole
  | tuple elements isTuple _ ih =>
      intro offset
      rcases exists_parenTree ih (offset + byteLength Mark.leftParen.text) with
        ⟨list, types_eq, height_eq, spells⟩
      refine ⟨.group (.ofText offset Mark.leftParen.text) list, ?_, ?_, ?_⟩
      · rw [TypeTree.type_group, types_eq, group_of_two_le isTuple]
      · rw [TypeTree.height, TypeTree.parenHeight_eq, height_eq, height]
      · have whole := Spells.mark_append .leftParen spells
        rw [render, TypeTree.lexemes, TypeTree.parenLexemes_eq]
        simpa [Mark.text] using whole
  | function parameters result _ _ parametersIh resultIh =>
      intro offset
      let inside := offset + byteLength Mark.leftParen.text
      let stop := inside + byteLength ((renderList parameters).toList ++ Mark.rightParen.text)
      rcases exists_parenTree parametersIh inside with ⟨list, types_eq, height_eq, spells⟩
      rcases resultIh (stop + 1 + byteLength Mark.arrow.text + 1) with
        ⟨tree, rfl, resultHeight_eq, resultSpells⟩
      refine ⟨.function (.ofText offset Mark.leftParen.text) list
        (.ofText (stop + 1) Mark.arrow.text) tree, ?_, ?_, ?_⟩
      · rw [TypeTree.type, TypeTree.parenTypes_eq, types_eq]
      · rw [TypeTree.height, TypeTree.parenHeight_eq, height_eq, resultHeight_eq, height]
      · have arrowSpells := (Spells.mark_append .arrow resultSpells.space_append).space_append
        have both := spells.append arrowSpells (endsName_cons (by decide) _)
        have whole := Spells.mark_append .leftParen both
        rw [render, TypeTree.lexemes, TypeTree.parenLexemes_eq]
        simpa [Mark.text] using whole

/-! ## From trees to types -/

/-- A property of types holds for a tree when each production of a type hands it
on from the types that are written in it. -/
@[elab_as_elim]
theorem TypeTree.inductionOnItems
    {motive : TypeTree → Prop}
    (primitive : ∀ type place, motive (.primitive type place))
    (bare : ∀ name place, motive (.bare name place))
    (applied : ∀ name place less arguments, (∀ item ∈ arguments.items, motive item) →
      motive (.applied name place less arguments))
    (group : ∀ left elements, (∀ item ∈ elements.items, motive item) →
      motive (.group left elements))
    (function : ∀ left parameters arrow result, (∀ item ∈ parameters.items, motive item) →
      motive result → motive (.function left parameters arrow result))
    (tree : TypeTree) : motive tree := by
  refine TypeTree.rec primitive bare applied group function ?_ ?_ ?_ ?_ tree
  · exact fun _ _ => List.forall_mem_singleton.2
  · exact fun _ _ _ first others => List.forall_mem_cons.2 ⟨first, others⟩
  · exact fun _ => nofun
  · exact fun _ => id

/-- The height of a list of types is that of the highest one. -/
theorem TypeExpr.heightList_eq (types : List TypeExpr) :
    heightList types = greatest (types.map height) := by
  induction types with
  | nil => rfl
  | cons type types ih => rw [heightList, List.map_cons, greatest_cons, ih]

theorem greatest_map_le_greatest_map
    {Item : Type} {items : List Item} {lower upper : Item → Nat}
    (areLower : ∀ item ∈ items, lower item ≤ upper item) :
    greatest (items.map lower) ≤ greatest (items.map upper) := by
  induction items with
  | nil => exact Nat.le_refl _
  | cons item items ih =>
      rcases List.forall_mem_cons.1 areLower with ⟨isLower, areOthersLower⟩
      rw [List.map_cons, List.map_cons, greatest_cons, greatest_cons]
      exact max_le_max isLower (ih areOthersLower)

/-- Parentheses open one level at most. -/
theorem TypeExpr.height_group_le (elements : List TypeExpr) :
    (group elements).height ≤ heightList elements + 1 := by
  match elements with
  | [] => exact Nat.le_refl _
  | [type] => exact Nat.le_succ_of_le (Nat.le_max_left _ _)
  | _ :: _ :: _ => exact Nat.le_refl _

/-- No more types are open at once in a type than where it is written: there are
no parentheses in it that only group. -/
theorem TypeTree.height_type_le (tree : TypeTree) : tree.type.height ≤ tree.height := by
  have ofItems {items : List TypeTree} (ih : ∀ item ∈ items, item.type.height ≤ item.height) :
      TypeExpr.heightList (items.map type) ≤ greatest (items.map height) := by
    rw [TypeExpr.heightList_eq, List.map_map]
    exact greatest_map_le_greatest_map ih
  induction tree using TypeTree.inductionOnItems with
  | primitive type place => exact Nat.le_refl _
  | bare name place => exact Nat.le_refl _
  | applied name place less arguments ih =>
      rw [type, height, commaTypes_eq, commaHeight_eq, TypeExpr.height]
      exact Nat.succ_le_succ (ofItems ih)
  | group left elements ih =>
      rw [type_group, height, parenHeight_eq]
      exact (TypeExpr.height_group_le _).trans (Nat.succ_le_succ (ofItems ih))
  | function left parameters arrow result ih resultIh =>
      rw [type, height, parenTypes_eq, parenHeight_eq, TypeExpr.height]
      exact Nat.succ_le_succ (max_le_max (ofItems ih) resultIh)

/-- Types in parentheses can be declared if each of them can. -/
theorem TypeExpr.isDeclarable_group
    {elements : List TypeExpr} (areDeclarable : ∀ element ∈ elements, element.IsDeclarable) :
    (group elements).IsDeclarable := by
  match elements with
  | [] => exact .primitive .unit
  | [type] => exact areDeclarable type (by simp)
  | _ :: _ :: _ => exact .tuple _ (by simp) areDeclarable

/-- The name in a token that can be written is a name of the lexer. -/
theorem mem_name_of_isWritable {name : String} (isWritable : (Token.upper name).IsWritable) :
    name.toList ∈ Pattern.name isUpperStart := by
  rcases isWritable with ⟨word, isName, rfl⟩
  rwa [String.toList_ofList]

/-- Where all tokens are written as tokens are, types can be declared. -/
theorem TypeTree.isDeclarable_type
    (tree : TypeTree) (areWritable : ∀ lexeme ∈ tree.lexemes, lexeme.token.IsWritable) :
    tree.type.IsDeclarable := by
  induction tree using TypeTree.inductionOnItems with
  | primitive type place => exact .primitive type
  | bare name place =>
      exact .named name [] (mem_name_of_isWritable (areWritable _ List.mem_cons_self)) nofun
  | applied name place less arguments ih =>
      rw [lexemes, commaLexemes_eq] at areWritable
      rcases List.forall_mem_cons.1 areWritable with ⟨isWritable, areInside⟩
      rw [type, commaTypes_eq]
      refine .named name _ (mem_name_of_isWritable isWritable) (List.forall_mem_map.2 ?_)
      intro item isItem
      have isPart : IsPart item.lexemes item.height (arguments.lexemes lexemes .greater) _ :=
        CommaTree.isPart_of_mem isItem
      exact ih item isItem fun lexeme isIn =>
        areInside lexeme (List.mem_cons_of_mem _ (isPart.isInfix.subset isIn))
  | group left elements ih =>
      rw [lexemes, parenLexemes_eq] at areWritable
      rw [type_group]
      refine TypeExpr.isDeclarable_group (List.forall_mem_map.2 ?_)
      intro item isItem
      have isPart : IsPart item.lexemes item.height _ _ := ParenTree.isPart_of_mem isItem
      exact ih item isItem fun lexeme isIn =>
        areWritable lexeme (List.mem_cons_of_mem _ (isPart.isInfix.subset isIn))
  | function left parameters arrow result ih resultIh =>
      rw [lexemes, parenLexemes_eq] at areWritable
      rw [type, parenTypes_eq]
      refine .function _ _ (List.forall_mem_map.2 ?_) ?_
      · intro item isItem
        have isPart : IsPart item.lexemes item.height _ _ := ParenTree.isPart_of_mem isItem
        refine ih item isItem fun lexeme isIn => areWritable lexeme ?_
        exact List.mem_cons_of_mem _ (List.mem_append_left _ (isPart.isInfix.subset isIn))
      · refine resultIh fun lexeme isIn => areWritable lexeme ?_
        exact List.mem_cons_of_mem _ (List.mem_append_right _ (List.mem_cons_of_mem _ isIn))

/-! ## Reading back -/

/-- The lexemes of a source in which a constant is declared with a type. -/
theorem lex_declaration
    {text : List Char} {tree : TypeTree} (spells : Spells 18 text tree.lexemes) :
    let stop := 18 + byteLength text
    lex ("module M \x7b val x: ".toList ++ text ++ " = 1 \x7d".toList) =
      .ok (UnitTree.ofConstant (.given ⟨16, 17⟩ tree) ⟨1 + stop, 2 + stop⟩
        ⟨_, isExpression_singleton ⟨3 + stop, 4 + stop⟩⟩ ⟨5 + stop, 6 + stop⟩).lexemes := by
  intro stop
  have frontRead : lex "module M \x7b val x:".toList =
      .ok [⟨.keyword .moduleWord, ⟨0, 6⟩⟩, ⟨.upper "M", ⟨7, 8⟩⟩, ⟨.mark .leftBrace, ⟨9, 10⟩⟩,
        ⟨.keyword .valWord, ⟨11, 14⟩⟩, ⟨.lower "x", ⟨15, 16⟩⟩, ⟨.mark .colon, ⟨16, 17⟩⟩] := by
    decide +kernel
  have backRead : lex " = 1 \x7d".toList =
      .ok [⟨.mark .equal, ⟨1, 2⟩⟩, ⟨.integerLiteral, ⟨3, 4⟩⟩, ⟨.mark .rightBrace, ⟨5, 6⟩⟩] := by
    decide +kernel
  have spaced : "module M \x7b val x: ".toList = "module M \x7b val x:".toList ++ [' '] := by
    decide +kernel
  have ofFront := lex_append_space_append frontRead rfl (text ++ " = 1 \x7d".toList)
  have ofType := spells " = 1 \x7d".toList (endsName_cons (by decide) _)
  rw [lexFrom_eq_shiftAnswer stop, backRead] at ofType
  rw [show byteLength "module M \x7b val x:".toList + 1 = 18 from rfl, ofType] at ofFront
  rw [UnitTree.lexemes_ofConstant, spaced, List.append_assoc, List.append_assoc,
    List.singleton_append]
  exact ofFront

theorem text_of_declaration (text : List Char) :
    let stop := 18 + byteLength text
    ExpressionTree.text ("module M \x7b val x: ".toList ++ text ++ " = 1 \x7d".toList)
      ⟨_, isExpression_singleton ⟨3 + stop, 4 + stop⟩⟩ = "1" := by
  intro stop
  have isRead : lex "1".toList = .ok [⟨.integerLiteral, ⟨0, 1⟩⟩] := by decide +kernel
  have one : IsExcerpt "1".toList [⟨.integerLiteral, ⟨0, 1⟩⟩] "1".toList :=
    ⟨by simp, ⟨[], [], rfl, rfl, rfl⟩, lexFrom_eq_ok_iff.1 isRead⟩
  have front_eq :
      byteLength ("module M \x7b val x: ".toList ++ text ++ " = ".toList) = stop + 3 := by
    rw [Text.byteLength_append, Text.byteLength_append]
    rfl
  have moved := one.moved isRead ("module M \x7b val x: ".toList ++ text ++ " = ".toList)
    " \x7d".toList
  rw [front_eq, List.append_assoc _ "1".toList, List.append_assoc _ " = ".toList,
    List.map_singleton, Lexeme.shift_mk, show 0 + (stop + 3) = 3 + stop by omega,
    show 1 + (stop + 3) = 4 + stop by omega] at moved
  exact ExpressionTree.text_eq moved

/-- A type that can be declared is read back from the text of a constant of that
type. -/
theorem TypeExpr.IsDeclarable.parse_ofConstant
    {type : TypeExpr} (isDeclarable : type.IsDeclarable)
    (hasRoom : type.height ≤ nestingLimit - 1) :
    parse ("module M \x7b val x: ".toList ++ type.render.toList ++ " = 1 \x7d".toList) =
      .ok (.ofConstant ⟨"x", .visible, some type, "1"⟩) := by
  rcases isDeclarable.isReadBack 18 with ⟨tree, rfl, height_eq, spells⟩
  have parsed := parse_of_lex_eq_ofConstant (lex_declaration spells) (height_eq.trans_le hasRoom)
  rw [text_of_declaration] at parsed
  exact parsed

/-- A type that can be declared and fits the nesting limit is what its written
form is read back to, and every type that a unit is read with is such a type. -/
theorem parse_ofConstant_and_types_areDeclarable :
    (∀ type : TypeExpr, type.IsDeclarable → type.height ≤ nestingLimit - 1 →
      parse ("module M \x7b val x: ".toList ++ type.render.toList ++ " = 1 \x7d".toList) =
        .ok (.ofConstant ⟨"x", .visible, some type, "1"⟩)) ∧
    ∀ source unit, parse source = .ok unit → ∀ type ∈ unit.body.types,
      type.IsDeclarable ∧ type.height ≤ nestingLimit - 1 ∧
        parse ("module M \x7b val x: ".toList ++ type.render.toList ++ " = 1 \x7d".toList) =
          .ok (.ofConstant ⟨"x", .visible, some type, "1"⟩) := by
  refine ⟨fun type isDeclarable hasRoom => isDeclarable.parse_ofConstant hasRoom, ?_⟩
  intro source unit parsed type isDeclared
  rw [parse, parseWithin_eq_ok_iff] at parsed
  rcases parsed with ⟨tree, isLexed, fits, rfl⟩
  rcases List.mem_map.1 ((tree.body.types_perm source).mem_iff.1 isDeclared) with
    ⟨written, isIn, rfl⟩
  have isPart := ConstructTree.isPart_of_mem_types isIn
  have isDeclarable : written.type.IsDeclarable := by
    refine written.isDeclarable_type fun lexeme isLexeme => ?_
    have inSource : lexeme ∈ tree.lexemes :=
      List.mem_append_right _ (isPart.isInfix.subset isLexeme)
    rcases (lexFrom_eq_ok_iff.1 isLexed).tokens [] rfl lexeme inSource with
      ⟨_, piece, _, _, isToken⟩
    exact ⟨piece, isToken.isWritten⟩
  have hasRoom : written.type.height ≤ nestingLimit - 1 := by
    have written_le := written.height_type_le
    have whole_le : tree.body.height ≤ nestingLimit := fits nestingLimit rfl
    have height_le := isPart.height_le
    omega
  exact ⟨isDeclarable, hasRoom, isDeclarable.parse_ofConstant hasRoom⟩

/-- A tuple is the only parameter of a function that returns a function without
parameters. -/
theorem function_of_tuple_parses :
    let type := TypeExpr.function
      [.tuple [.named "List" [.primitive .int], .primitive .bool]] (.function [] (.named "B_2" []))
    type.IsDeclarable ∧ type.height ≤ nestingLimit - 1 ∧
      parse "module M \x7b val x: ((List<int>, bool)) -> () -> B_2 = 1 \x7d".toList =
        .ok (.ofConstant ⟨"x", .visible, some type, "1"⟩) := by
  intro type
  have isList : TypeExpr.IsDeclarable (.named "List" [.primitive .int]) :=
    .named _ _ (Pattern.cons_mem_name_iff.2 ⟨rfl, List.all_eq_true.1 rfl⟩)
      (List.forall_mem_singleton.2 (.primitive .int))
  have isTuple :
      TypeExpr.IsDeclarable (.tuple [.named "List" [.primitive .int], .primitive .bool]) :=
    .tuple _ (by decide)
      (List.forall_mem_cons.2 ⟨isList, List.forall_mem_singleton.2 (.primitive .bool)⟩)
  have isResult : TypeExpr.IsDeclarable (.named "B_2" []) :=
    .named _ _ (Pattern.cons_mem_name_iff.2 ⟨rfl, List.all_eq_true.1 rfl⟩) nofun
  have isDeclarable : type.IsDeclarable :=
    .function _ _ (List.forall_mem_singleton.2 isTuple) (.function _ _ nofun isResult)
  have hasRoom : type.height ≤ nestingLimit - 1 := by decide
  have written : "module M \x7b val x: ".toList ++ type.render.toList ++ " = 1 \x7d".toList =
      "module M \x7b val x: ((List<int>, bool)) -> () -> B_2 = 1 \x7d".toList := by
    decide +kernel
  rw [← written]
  exact ⟨isDeclarable, hasRoom,
    parse_ofConstant_and_types_areDeclarable.1 type isDeclarable hasRoom⟩

end TarnBuild
