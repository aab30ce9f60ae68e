import TarnBuild.Proofs.Grammar.Follow

/-!
# Whatever has a tree is read

A parser that is run on the lexemes of a tree ends right after them with the
value that the tree stands for, as long as the nesting limit has room for the
tree and what follows does not go on with it.  The bounds on the numbers of
items and lexemes are met, as no tree has more items or deeper parts than it
has lexemes.
-/

namespace TarnBuild

open Text (Span)

namespace Parser

variable {Value Tree : Type} {context : ParseContext}

/-- The parser reads some lexemes as a value, where what follows allows it and
where there is room for their height. -/
def Reads (context : ParseContext) (parser : Parser Value) (lexemes : List Lexeme)
    (height : Nat) (value : Value) (follow : List Lexeme → Prop) : Prop :=
  ∀ rest depth, follow rest → context.HasRoom depth height →
    parser context ⟨lexemes ++ rest, depth⟩ = .done value ⟨rest, depth⟩

/-- The room for one level more is the room that the limit has to leave. -/
theorem Reads.nested
    {parser : Parser Value} {lexemes : List Lexeme} {height : Nat} {value : Value}
    {follow : List Lexeme → Prop}
    (reads : Reads context parser lexemes height value follow) :
    Reads context (nested parser) lexemes (height + 1) value follow := by
  intro rest depth follows hasRoom
  rcases ParseContext.hasRoom_succ.1 hasRoom with ⟨notFull, inside⟩
  exact nested_eq_done_iff.2 ⟨notFull, _, reads rest (depth + 1) follows inside, rfl⟩

/-! ## Lists -/

section Lists

variable {item : Parser Value} {spell : Tree → List Lexeme} {height : Tree → Nat}
  {value : Tree → Value} (follow : List Lexeme → Prop) (close : Mark)

/-- The lexemes of a list are read as its items.  Each item is followed by a
comma or by the closing mark, so these must be allowed to follow it. -/
theorem reads_commaListUpTo
    (followsComma : ∀ place rest, follow (⟨.mark .comma, place⟩ :: rest))
    (followsClose : ∀ place rest, follow (⟨.mark close, place⟩ :: rest))
    (notComma : close ≠ .comma)
    (list : CommaTree Tree)
    (itemReads : ∀ tree ∈ list.items,
      Reads context item (spell tree) (height tree) (value tree) follow)
    (expectation : Expectation) (bound : Nat)
    (enough : list.items.length ≤ bound + 1) :
    Reads context (commaListUpTo item close expectation bound)
      (list.lexemes spell close) (greatest (list.items.map height))
      (list.items.map value) (fun _ => True) := by
  induction list generalizing bound with
  | last only place =>
      intro rest depth _ hasRoom
      have first := itemReads only (by simp [CommaTree.items])
        (⟨.mark close, place⟩ :: rest) depth (followsClose place rest)
        (by simpa [CommaTree.items] using hasRoom)
      have atClose : Avoids (.mark .comma) (⟨.mark close, place⟩ :: rest) := by
        simpa using notComma
      simp only [CommaTree.lexemes, List.append_assoc, List.singleton_append]
      cases bound with
      | zero =>
          apply done_bind first
          exact done_bind (expect_run _ _ _ _ _ _) rfl
      | succ bound =>
          apply done_bind first
          apply done_bind (atClose.eat_run context depth)
          exact done_bind (expect_run _ _ _ _ _ _) rfl
  | more tree comma others ih =>
      intro rest depth _ hasRoom
      simp only [CommaTree.items, List.map_cons, greatest_cons,
        ParseContext.hasRoom_max] at hasRoom
      have first := itemReads tree (by simp [CommaTree.items])
        (⟨.mark .comma, comma⟩ :: (others.lexemes spell close ++ rest)) depth
        (followsComma comma _) hasRoom.1
      simp only [CommaTree.lexemes, List.append_assoc, List.cons_append]
      cases bound with
      | zero =>
          cases others <;> simp [CommaTree.items] at enough
      | succ bound =>
          have more := ih (fun other isOther => itemReads other (by
              simp [CommaTree.items, isOther])) bound
            (by simpa [CommaTree.items] using enough) rest depth trivial hasRoom.2
          apply done_bind first
          apply done_bind (eat_run _ _ _ _ _)
          exact done_bind more rfl

/-- A list has no more items than lexemes, so its bound is large enough. -/
theorem reads_commaList
    (followsComma : ∀ place rest, follow (⟨.mark .comma, place⟩ :: rest))
    (followsClose : ∀ place rest, follow (⟨.mark close, place⟩ :: rest))
    (notComma : close ≠ .comma)
    (list : CommaTree Tree)
    (itemReads : ∀ tree ∈ list.items,
      Reads context item (spell tree) (height tree) (value tree) follow)
    (expectation : Expectation) :
    Reads context (commaList item close expectation)
      (list.lexemes spell close) (greatest (list.items.map height))
      (list.items.map value) (fun _ => True) := by
  intro rest depth follows hasRoom
  have enough : list.items.length ≤ (list.lexemes spell close ++ rest).length + 1 := by
    have fewer : list.items.length ≤ (list.lexemes spell close).length :=
      list.length_items_le
    rw [List.length_append]
    omega
  exact reads_commaListUpTo follow close followsComma followsClose notComma list itemReads
    expectation _ enough rest depth follows hasRoom

/-- The first lexeme after the opening parenthesis tells whether there are
items. -/
theorem reads_parenList
    (followsComma : ∀ place rest, follow (⟨.mark .comma, place⟩ :: rest))
    (followsClose : ∀ place rest, follow (⟨.mark .rightParen, place⟩ :: rest))
    (startsItem : ∀ tree rest, Avoids (.mark .rightParen) (spell tree ++ rest))
    (list : ParenTree Tree)
    (itemReads : ∀ tree ∈ list.items,
      Reads context item (spell tree) (height tree) (value tree) follow) :
    Reads context (parenList item) (list.lexemes spell)
      (greatest (list.items.map height)) (list.items.map value) (fun _ => True) := by
  intro rest depth follows hasRoom
  cases list with
  | empty place =>
      exact done_bind (eat_run _ _ _ _ _) rfl
  | filled items =>
      have atItem : Avoids (.mark .rightParen) (items.lexemes spell .rightParen ++ rest) := by
        cases items <;>
          simp only [CommaTree.lexemes, List.append_assoc] <;> exact startsItem _ _
      apply done_bind (atItem.eat_run context depth)
      exact reads_commaList follow .rightParen followsComma followsClose (by decide) items
        itemReads _ rest depth follows hasRoom

end Lists

/-! ## Types -/

/-- Whatever a type has inside is shorter than the type, so the parser for it,
which may take one lexeme less, can still read it. -/
theorem reads_typeUpTo (context : ParseContext) (bound : Nat) :
    ∀ tree : TypeTree, tree.lexemes.length ≤ bound →
      Reads context (typeUpTo bound) tree.lexemes tree.height tree.type EndsType := by
  induction bound with
  | zero =>
      intro tree short
      cases tree <;> simp [TypeTree.lexemes] at short
  | succ bound ih =>
      intro tree short
      have parenReads
          (list : ParenTree TypeTree)
          (within : (list.lexemes TypeTree.lexemes).length ≤ bound) :
          Reads context (parenList (typeUpTo bound)) (list.lexemes TypeTree.lexemes)
            (greatest (list.items.map TypeTree.height)) (list.items.map TypeTree.type)
            (fun _ => True) := by
        apply reads_parenList EndsType (by simp) (by simp) TypeTree.avoids_rightParen
        intro item isItem
        have shorter : item.lexemes.length < (list.lexemes TypeTree.lexemes).length :=
          ParenTree.length_lt_of_mem isItem
        exact ih item (by omega)
      cases tree with
      | primitive type place =>
          apply Reads.nested
          intro rest depth _ _
          rfl
      | bare name place =>
          apply Reads.nested
          intro rest depth follows _
          apply done_bind (peek_run _ _)
          apply done_bind (advance_run _ _ _ _)
          exact done_bind (follows.avoids_less.eat_run context depth) rfl
      | applied name place less arguments =>
          simp only [TypeTree.lexemes, TypeTree.commaLexemes_eq, List.length_cons] at short
          simp only [TypeTree.lexemes, TypeTree.height, TypeTree.type,
            TypeTree.commaLexemes_eq, TypeTree.commaHeight_eq, TypeTree.commaTypes_eq]
          apply Reads.nested
          intro rest depth _ hasRoom
          have itemsRead : ∀ item ∈ arguments.items,
              Reads context (typeUpTo bound) item.lexemes item.height item.type EndsType := by
            intro item isItem
            have shorter : item.lexemes.length <
                (arguments.lexemes TypeTree.lexemes .greater).length :=
              CommaTree.length_lt_of_mem isItem
            exact ih item (by omega)
          have argumentsRead := reads_commaList EndsType .greater (by simp) (by simp)
            (by decide) arguments itemsRead .commaOrAngle rest depth trivial hasRoom
          apply done_bind (peek_run _ _)
          apply done_bind (advance_run _ _ _ _)
          apply done_bind (eat_run context (.mark .less) less _ depth)
          exact done_bind argumentsRead rfl
      | group left elements =>
          simp only [TypeTree.lexemes, TypeTree.parenLexemes_eq, List.length_cons] at short
          simp only [TypeTree.lexemes, TypeTree.height, TypeTree.type_group,
            TypeTree.parenLexemes_eq, TypeTree.parenHeight_eq]
          apply Reads.nested
          intro rest depth follows hasRoom
          have elementsRead := parenReads elements (by omega) rest depth trivial hasRoom
          apply done_bind (peek_run _ _)
          apply done_bind (advance_run _ _ _ _)
          apply done_bind elementsRead
          exact done_bind (follows.avoids_arrow.eat_run context depth) rfl
      | function left parameters arrow result =>
          simp only [TypeTree.lexemes, TypeTree.parenLexemes_eq, List.length_cons,
            List.length_append] at short
          simp only [TypeTree.lexemes, TypeTree.height, TypeTree.type,
            TypeTree.parenLexemes_eq, TypeTree.parenHeight_eq, TypeTree.parenTypes_eq]
          apply Reads.nested
          intro rest depth follows hasRoom
          rw [ParseContext.hasRoom_max] at hasRoom
          have parametersRead := parenReads parameters (by omega)
            (⟨.mark .arrow, arrow⟩ :: (result.lexemes ++ rest)) depth trivial hasRoom.1
          have resultRead := ih result (by omega) rest depth follows hasRoom.2
          simp only [List.cons_append, List.append_assoc]
          apply done_bind (peek_run _ _)
          apply done_bind (advance_run _ _ _ _)
          apply done_bind parametersRead
          apply done_bind (eat_run context (.mark .arrow) arrow _ depth)
          exact done_bind resultRead rfl

/-- A written type is read as the type that it stands for, unless an arrow or a
list of arguments follows. -/
theorem reads_type (context : ParseContext) (tree : TypeTree) :
    Reads context type tree.lexemes tree.height tree.type EndsType := by
  intro rest depth follows hasRoom
  have within : tree.lexemes.length ≤ (tree.lexemes ++ rest).length := by simp
  exact reads_typeUpTo context _ tree within rest depth follows hasRoom

/-! ## Constants and functions -/

/-- Type parameters open no level, and without any the next lexeme must not
begin them. -/
theorem reads_typeParameters (context : ParseContext) (tree : TypeParametersTree) :
    Reads context typeParameters tree.lexemes 0 tree.names (Avoids (.mark .less)) := by
  intro rest depth follows _
  cases tree with
  | absent => exact done_bind (follows.eat_run context depth) rfl
  | listed less list =>
      have namesRead : ∀ tree ∈ list.items,
          Reads context (upperName .typeParameter) tree.lexemes 0
            (TypeParameterTree.name tree) (fun _ => True) := by
        intro tree _ rest depth _ _
        rfl
      have listRead : Reads context (commaList (upperName .typeParameter) .greater .commaOrAngle)
          (list.lexemes TypeParameterTree.lexemes .greater)
          (greatest (list.items.map fun _ => 0)) (list.items.map TypeParameterTree.name)
          (fun _ => True) :=
        reads_commaList (fun _ => True) .greater (by simp) (by simp) (by decide) list
          namesRead _
      apply done_bind (eat_run context (.mark .less) less _ depth)
      exact listRead rest depth trivial (by simp)

theorem reads_annotation (context : ParseContext) (tree : AnnotationTree) :
    Reads context annotation tree.lexemes tree.height tree.type?
      (fun rest => Avoids (.mark .colon) rest ∧ EndsType rest) := by
  rintro rest depth ⟨noColon, endsType⟩ hasRoom
  cases tree with
  | absent => exact done_bind (noColon.eat_run context depth) rfl
  | given colon tree =>
      apply done_bind (eat_run context (.mark .colon) colon _ depth)
      exact done_bind (reads_type context tree rest depth endsType hasRoom) rfl

/-- A constant is read to the lexeme that ends its value. -/
theorem reads_constant
    (context : ParseContext) (visibility : Visibility) (tree : ConstantTree) :
    Reads context (constant visibility) tree.lexemes tree.annotation.height
      (tree.constant context.source visibility) EndsExpression := by
  intro rest depth endsExpression hasRoom
  have annotationRead (more : List Lexeme) :=
    reads_annotation context tree.annotation (⟨.mark .equal, tree.equal⟩ :: more) depth
      (by simp) hasRoom
  simp only [ConstantTree.lexemes, List.cons_append, List.append_assoc]
  apply done_bind (lowerName_run _ _ _ _ _ _)
  apply done_bind (annotationRead _)
  apply done_bind (expect_run _ _ _ _ _ _)
  exact done_bind (expression_run tree.value endsExpression) rfl

theorem reads_parameter (context : ParseContext) (tree : ParameterTree) :
    Reads context parameter tree.lexemes tree.height tree.parameter EndsType := by
  intro rest depth endsType hasRoom
  simp only [ParameterTree.lexemes, List.cons_append]
  apply done_bind (lowerName_run _ _ _ _ _ _)
  apply done_bind (expect_run _ _ _ _ _ _)
  exact done_bind (reads_type context tree.type rest depth endsType hasRoom) rfl

/-- A function is read to the lexeme that ends its body. -/
theorem reads_function
    (context : ParseContext) (visibility : Visibility) (tree : FunctionTree) :
    Reads context (function visibility) tree.lexemes tree.height
      (tree.function context.source visibility) EndsExpression := by
  intro rest depth endsExpression hasRoom
  rw [FunctionTree.height, ParseContext.hasRoom_max] at hasRoom
  have parametersRead :
      Reads context (parenList parameter) (tree.parameters.lexemes ParameterTree.lexemes)
        (greatest (tree.parameters.items.map ParameterTree.height))
        (tree.parameters.items.map ParameterTree.parameter) (fun _ => True) :=
    reads_parenList EndsType (by simp) (by simp)
      ParameterTree.avoids_rightParen tree.parameters
      (fun tree _ => reads_parameter context tree)
  simp only [FunctionTree.lexemes, List.cons_append, List.append_assoc]
  apply done_bind (lowerName_run _ _ _ _ _ _)
  apply done_bind
    (reads_typeParameters context tree.typeParameters _ depth (by simp) (by simp))
  apply done_bind (expect_run _ _ _ _ _ _)
  apply done_bind (parametersRead _ depth trivial hasRoom.1)
  apply done_bind (expect_run _ _ _ _ _ _)
  apply done_bind (reads_type context tree.result _ depth (by simp) hasRoom.2)
  apply done_bind (expect_run _ _ _ _ _ _)
  exact done_bind (expression_run tree.body endsExpression) rfl

/-! ## Members and constructs -/

/-- A token that may be left out is passed over if it is there, and must not
come next if it is not. -/
theorem optional_run
    {token : Token} (place : Option Span) {rest : List Lexeme} {depth : Nat}
    (avoids : Avoids token rest) :
    (discard (eat token) : Parser Unit) context
        ⟨optionalLexeme token place ++ rest, depth⟩ =
      .done () ⟨rest, depth⟩ := by
  rw [discard_run]
  cases place with
  | none => exact done_bind (avoids.eat_run context depth) rfl
  | some place => exact done_bind (eat_run context token place rest depth) rfl

/-- A member is read with its semicolon.  Without one, what follows must be able
to end its expression. -/
theorem reads_ownMember (context : ParseContext) (tree : OwnMemberTree) :
    Reads context ownMember tree.lexemes tree.height (tree.member context.source)
      EndsMember := by
  rintro rest depth ⟨endsExpression, noSemicolon⟩ hasRoom
  rcases tree with ⟨word, declaration, semicolon⟩
  have semicolonRead : (discard (eat (.mark .semicolon)) : Parser Unit) context
      ⟨optionalLexeme (.mark .semicolon) semicolon ++ rest, depth⟩ =
        .done () ⟨rest, depth⟩ :=
    optional_run semicolon noSemicolon
  have wordRead :
      eat (.keyword .privateWord) context
          ⟨optionalLexeme (.keyword .privateWord) word ++ (declaration.lexemes ++
            (optionalLexeme (.mark .semicolon) semicolon ++ rest)), depth⟩ =
        .done word.isSome ⟨declaration.lexemes ++
          (optionalLexeme (.mark .semicolon) semicolon ++ rest), depth⟩ := by
    cases word with
    | none =>
        exact (declaration.avoids_privateWord _).eat_run context depth
    | some place => exact eat_run context (.keyword .privateWord) place _ depth
  simp only [OwnMemberTree.lexemes, List.append_assoc]
  apply done_bind wordRead
  apply done_bind (peek_run _ _)
  cases declaration with
  | constant place tree =>
      apply done_bind (advance_run _ _ _ _)
      apply done_bind (reads_constant context _ tree _ depth
        (endsExpression_optional semicolon endsExpression) hasRoom)
      exact done_bind semicolonRead rfl
  | function place tree =>
      apply done_bind (advance_run _ _ _ _)
      apply done_bind (reads_function context _ tree _ depth
        (endsExpression_optional semicolon endsExpression) hasRoom)
      exact done_bind semicolonRead rfl

/-- The members of a tree are read to the closing brace, if the constructs among
them are. -/
theorem reads_membersUpTo
    {inner : Parser Construct} {size : Nat}
    (innerReads : ∀ tree : ConstructTree, tree.lexemes.length ≤ size →
      Reads context inner tree.lexemes tree.height (tree.construct context.source)
        (fun _ => True))
    (bound : Nat) :
    ∀ tree : MembersTree, tree.lexemes.length ≤ size → tree.lexemes.length ≤ bound →
      Reads context (membersUpTo inner bound) tree.lexemes tree.height
        (tree.members context.source) (fun _ => True) := by
  induction bound with
  | zero =>
      intro tree _ within
      have nonempty := tree.lexemes_ne_nil
      exact (nonempty (List.eq_nil_of_length_eq_zero (by omega))).elim
  | succ bound ih =>
      intro tree short within rest depth _ hasRoom
      cases tree with
      | close right =>
          apply done_bind (peek_run _ _)
          exact done_bind (advance_run _ _ _ _) rfl
      | own member others =>
          -- The first word of the member leads into the branch that reads it.
          rcases member.exists_lexemes_eq_cons with ⟨word, place, more, isWord, same⟩
          simp only [MembersTree.lexemes, List.length_append] at short within
          rw [MembersTree.height, ParseContext.hasRoom_max] at hasRoom
          have nonempty : 0 < member.lexemes.length := by simp [same]
          have memberRead := reads_ownMember context member (others.lexemes ++ rest) depth
            (others.endsMember rest) hasRoom.1
          have othersRead := ih others (by omega) (by omega) rest depth trivial hasRoom.2
          rw [MembersTree.lexemes, List.append_assoc]
          rw [membersUpTo, bind_of_done (peek_run _ _)]
          rw [same] at memberRead ⊢
          rcases isWord with rfl | rfl | rfl
          · exact done_bind memberRead (done_bind othersRead rfl)
          · exact done_bind memberRead (done_bind othersRead rfl)
          · exact done_bind memberRead (done_bind othersRead rfl)
      | nested construct others =>
          rcases construct.exists_lexemes_eq_cons with ⟨word, place, more, isWord, same⟩
          simp only [MembersTree.lexemes, List.length_append] at short within
          rw [MembersTree.height, ParseContext.hasRoom_max] at hasRoom
          have nonempty : 0 < construct.lexemes.length := by simp [same]
          have constructRead := innerReads construct (by omega) (others.lexemes ++ rest)
            depth trivial hasRoom.1
          have othersRead := ih others (by omega) (by omega) rest depth trivial hasRoom.2
          rw [MembersTree.lexemes, List.append_assoc]
          rw [membersUpTo, bind_of_done (peek_run _ _)]
          rw [same] at constructRead ⊢
          rcases isWord with rfl | rfl
          · exact done_bind constructRead (done_bind othersRead rfl)
          · exact done_bind constructRead (done_bind othersRead rfl)

theorem constructKind_run (kind : ConstructKind) (place : Span) (rest : List Lexeme)
    (depth : Nat) :
    constructKind context ⟨⟨.keyword kind.keyword, place⟩ :: rest, depth⟩ =
      .done kind ⟨rest, depth⟩ := by
  cases kind <;> rfl

/-- The constructs inside a construct have fewer lexemes, so this is an
induction on the bound. -/
theorem reads_constructUpTo (context : ParseContext) (bound : Nat) :
    ∀ tree : ConstructTree, tree.lexemes.length ≤ bound →
      Reads context (constructUpTo bound) tree.lexemes tree.height
        (tree.construct context.source) (fun _ => True) := by
  induction bound with
  | zero =>
      intro tree short
      rcases tree.exists_lexemes_eq_cons with ⟨word, place, more, isWord, same⟩
      simp [same] at short
  | succ bound ih =>
      rintro ⟨head, members⟩ short
      simp only [ConstructTree.lexemes, HeadTree.lexemes, List.length_append,
        List.length_cons] at short
      rw [ConstructTree.height, ConstructTree.construct_mk]
      apply Reads.nested
      intro rest depth _ hasRoom
      have membersRead : Parser.members (constructUpTo bound) context
          ⟨members.lexemes ++ rest, depth⟩ =
            .done (members.members context.source) ⟨rest, depth⟩ := by
        have within : members.lexemes.length ≤ (members.lexemes ++ rest).length := by simp
        exact reads_membersUpTo ih _ members (by omega) within rest depth trivial hasRoom
      simp only [ConstructTree.lexemes, HeadTree.lexemes, List.cons_append,
        List.append_assoc, List.nil_append]
      apply done_bind (constructKind_run _ _ _ _)
      apply done_bind (upperName_run _ _ _ _ _ _)
      apply done_bind
        (reads_typeParameters context head.typeParameters _ depth (by simp) (by simp))
      apply done_bind (expect_run _ _ _ _ _ _)
      exact done_bind membersRead rfl

/-! ## Units -/

theorem reads_importedName (context : ParseContext) (tree : ImportTree) :
    ∃ others, tree.lexemes = ⟨.keyword .importWord, tree.word⟩ :: others ∧
      Reads context importedName others 0 tree.name (Avoids (.mark .semicolon)) := by
  refine ⟨_, rfl, ?_⟩
  intro rest depth avoids _
  rw [List.cons_append]
  apply done_bind (upperName_run _ _ _ _ _ _)
  exact done_bind (optional_run tree.semicolon avoids) rfl

theorem reads_imports
    (trees : List ImportTree) {rest : List Lexeme}
    (noImport : Avoids (.keyword .importWord) rest)
    (noSemicolon : Avoids (.mark .semicolon) rest)
    (bound : Nat)
    (enough : trees.length ≤ bound)
    (depth : Nat) :
    repeatAfter (.keyword .importWord) importedName bound context
        ⟨trees.flatMap ImportTree.lexemes ++ rest, depth⟩ =
      .done (trees.map ImportTree.name) ⟨rest, depth⟩ := by
  induction trees generalizing bound with
  | nil =>
      cases bound with
      | zero => rfl
      | succ bound => exact done_bind (noImport.eat_run context depth) rfl
  | cons tree trees ih =>
      cases bound with
      | zero => simp at enough
      | succ bound =>
          rcases reads_importedName context tree with ⟨others, same, reads⟩
          have follows := avoids_semicolon_imports trees noSemicolon
          have moreRead := ih bound (by simpa using enough)
          simp only [List.flatMap_cons, same, List.cons_append, List.append_assoc]
          apply done_bind (eat_run _ _ _ _ _)
          apply done_bind (reads _ depth follows (by simp))
          exact done_bind moreRead rfl

/-- The lexemes of a tree are read as the unit that it stands for. -/
theorem unit_run
    (tree : UnitTree) {depth : Nat}
    (hasRoom : context.HasRoom depth tree.height) :
    unit context ⟨tree.lexemes, depth⟩ =
      .done (tree.unit context.source) ⟨[], depth⟩ := by
  have importsRead : imports context ⟨tree.lexemes, depth⟩ =
      .done (tree.imports.map ImportTree.name) ⟨tree.body.lexemes, depth⟩ := by
    have noImport : Avoids (.keyword .importWord) tree.body.lexemes := by
      simpa using tree.body.avoids (by decide) (by decide) []
    have noSemicolon : Avoids (.mark .semicolon) tree.body.lexemes := by
      simpa using tree.body.avoids (by decide) (by decide) []
    have enough : tree.imports.length ≤ tree.lexemes.length := by
      have fewer := length_imports_le tree.imports
      rw [UnitTree.lexemes, List.length_append]
      omega
    exact reads_imports tree.imports noImport noSemicolon _ enough depth
  have bodyRead : construct context ⟨tree.body.lexemes, depth⟩ =
      .done (tree.body.construct context.source) ⟨[], depth⟩ := by
    have read := reads_constructUpTo context tree.body.lexemes.length tree.body (Nat.le_refl _)
      [] depth trivial hasRoom
    rwa [List.append_nil] at read
  apply done_bind importsRead
  apply done_bind bodyRead
  exact done_bind (peek_run _ _) rfl

end Parser

end TarnBuild
