import TarnBuild.Proofs.Grammar.Expression

/-!
# What may stand after a phrase

A phrase of the grammar can be followed by another phrase that would go on
with it: a type by type arguments or by the result of a function type, a
member by its semicolon.  Where such a phrase does not follow, the end of the
first one is decided by the lexeme that stands there.
-/

namespace TarnBuild

open Text (Span)

/-! ## Conditions on the next lexeme -/

/-- Some lexemes do not start with a token. -/
def Avoids (token : Token) (rest : List Lexeme) : Prop :=
  ∀ lexeme ∈ rest.head?, lexeme.token ≠ token

@[simp]
theorem avoids_cons_iff {token : Token} {lexeme : Lexeme} {rest : List Lexeme} :
    Avoids token (lexeme :: rest) ↔ lexeme.token ≠ token := by
  simp [Avoids]

theorem Avoids.token?_ne
    {token : Token} {rest : List Lexeme}
    (avoids : Avoids token rest)
    (depth : Nat) :
    (Cursor.mk rest depth).token? ≠ some token := by
  cases rest with
  | nil => simp [Cursor.token?]
  | cons lexeme rest => simpa [Cursor.token?] using avoids

theorem Avoids.eat_run
    {token : Token} {rest : List Lexeme}
    (avoids : Avoids token rest)
    (context : ParseContext) (depth : Nat) :
    Parser.eat token context ⟨rest, depth⟩ = .done false ⟨rest, depth⟩ :=
  Parser.eat_run_of_ne (avoids.token?_ne depth)

@[simp]
theorem endsExpression_cons_iff {lexeme : Lexeme} {rest : List Lexeme} :
    EndsExpression (lexeme :: rest) ↔ openAfter 0 lexeme.token = none := by
  simp [EndsExpression]

/-- A type ends where neither type arguments nor a result go on with it. -/
structure EndsType (rest : List Lexeme) : Prop where
  avoids_less : Avoids (.mark .less) rest
  avoids_arrow : Avoids (.mark .arrow) rest

/-- A member ends where neither its expression nor a semicolon goes on. -/
structure EndsMember (rest : List Lexeme) : Prop where
  endsExpression : EndsExpression rest
  avoids_semicolon : Avoids (.mark .semicolon) rest

/-- A type ends before every mark but the two that go on with it. -/
@[simp]
theorem endsType_cons_iff {mark : Mark} {place : Span} {rest : List Lexeme} :
    EndsType (⟨.mark mark, place⟩ :: rest) ↔ mark ≠ .less ∧ mark ≠ .arrow := by
  constructor
  · rintro ⟨noLess, noArrow⟩
    exact ⟨by simpa using noLess, by simpa using noArrow⟩
  · rintro ⟨noLess, noArrow⟩
    exact ⟨by simpa using noLess, by simpa using noArrow⟩

/-! ## Starts of phrases -/

theorem DeclarationTree.exists_lexemes_eq_cons (tree : DeclarationTree) :
    ∃ word place others, (word = .valWord ∨ word = .functionWord) ∧
      tree.lexemes = ⟨.keyword word, place⟩ :: others := by
  cases tree with
  | constant word tree => exact ⟨_, word, tree.lexemes, .inl rfl, rfl⟩
  | function word tree => exact ⟨_, word, tree.lexemes, .inr rfl, rfl⟩

/-- A member starts with a visibility or with the word of its declaration. -/
theorem OwnMemberTree.exists_lexemes_eq_cons (tree : OwnMemberTree) :
    ∃ word place others,
      (word = .privateWord ∨ word = .valWord ∨ word = .functionWord) ∧
        tree.lexemes = ⟨.keyword word, place⟩ :: others := by
  rcases tree with ⟨privateWord, declaration, semicolon⟩
  cases privateWord with
  | some place => exact ⟨_, place, _, .inl rfl, rfl⟩
  | none =>
      rcases declaration.exists_lexemes_eq_cons with ⟨word, place, others, isWord, same⟩
      refine ⟨word, place, others ++ optionalLexeme (.mark .semicolon) semicolon, .inr isWord, ?_⟩
      simp [OwnMemberTree.lexemes, optionalLexeme, same]

theorem ConstructTree.exists_lexemes_eq_cons (tree : ConstructTree) :
    ∃ word place others, (word = .moduleWord ∨ word = .classWord) ∧
      tree.lexemes = ⟨.keyword word, place⟩ :: others := by
  rcases tree with ⟨head, members⟩
  refine ⟨head.kind.keyword, head.word, _, ?_, by
    rw [ConstructTree.lexemes, HeadTree.lexemes, List.cons_append]⟩
  cases head.kind with
  | moduleKind => exact .inl rfl
  | classKind => exact .inr rfl

/-- No type starts with a closing parenthesis. -/
theorem TypeTree.avoids_rightParen (tree : TypeTree) (rest : List Lexeme) :
    Avoids (.mark .rightParen) (tree.lexemes ++ rest) := by
  cases tree <;> simp [TypeTree.lexemes]

theorem ParameterTree.avoids_rightParen (tree : ParameterTree) (rest : List Lexeme) :
    Avoids (.mark .rightParen) (tree.lexemes ++ rest) := by
  simp [ParameterTree.lexemes]

/-- Whatever is left of the members of a construct ends the member before it. -/
theorem MembersTree.endsMember (tree : MembersTree) (rest : List Lexeme) :
    EndsMember (tree.lexemes ++ rest) := by
  cases tree with
  | close right => constructor <;> simp [MembersTree.lexemes, openAfter]
  | own member others =>
      rcases member.exists_lexemes_eq_cons with ⟨word, place, others, isWord, same⟩
      rcases isWord with rfl | rfl | rfl <;>
        constructor <;> simp [MembersTree.lexemes, same, openAfter]
  | nested construct others =>
      rcases construct.exists_lexemes_eq_cons with ⟨word, place, others, isWord, same⟩
      rcases isWord with rfl | rfl <;>
        constructor <;> simp [MembersTree.lexemes, same, openAfter]

/-- A construct starts with none but the two words for its kinds. -/
theorem ConstructTree.avoids
    {token : Token}
    (notModule : token ≠ .keyword .moduleWord)
    (notClass : token ≠ .keyword .classWord)
    (tree : ConstructTree) (rest : List Lexeme) :
    Avoids token (tree.lexemes ++ rest) := by
  rcases tree.exists_lexemes_eq_cons with ⟨word, place, others, isWord, same⟩
  rcases isWord with rfl | rfl
  · simpa [same] using notModule.symm
  · simpa [same] using notClass.symm

theorem DeclarationTree.avoids_privateWord (tree : DeclarationTree) (rest : List Lexeme) :
    Avoids (.keyword .privateWord) (tree.lexemes ++ rest) := by
  cases tree <;> simp [DeclarationTree.lexemes]

/-- The first lexeme tells a member of another kind from a construct. -/
theorem OwnMemberTree.lexemes_append_ne_construct
    (member : OwnMemberTree) (construct : ConstructTree) {rest otherRest : List Lexeme} :
    member.lexemes ++ rest ≠ construct.lexemes ++ otherRest := by
  intro same
  rcases member.exists_lexemes_eq_cons with ⟨word, place, others, isWord, starts⟩
  rcases construct.exists_lexemes_eq_cons with
    ⟨otherWord, otherPlace, otherOthers, isOtherWord, otherStarts⟩
  rw [starts, otherStarts] at same
  rcases isWord with rfl | rfl | rfl <;>
    rcases isOtherWord with rfl | rfl <;> simp at same

theorem endsExpression_optional
    (semicolon : Option Span) {rest : List Lexeme}
    (ends : EndsExpression rest) :
    EndsExpression (optionalLexeme (.mark .semicolon) semicolon ++ rest) := by
  cases semicolon with
  | none => exact ends
  | some place => simp [optionalLexeme, openAfter]

theorem avoids_semicolon_imports
    (trees : List ImportTree) {rest : List Lexeme}
    (noSemicolon : Avoids (.mark .semicolon) rest) :
    Avoids (.mark .semicolon) (trees.flatMap ImportTree.lexemes ++ rest) := by
  cases trees with
  | nil => exact noSemicolon
  | cons tree trees => simp [ImportTree.lexemes]

/-! ## Lengths -/

theorem MembersTree.lexemes_ne_nil (tree : MembersTree) : tree.lexemes ≠ [] := by
  cases tree with
  | close right => simp [lexemes]
  | own member others =>
      rcases member.exists_lexemes_eq_cons with ⟨word, place, more, _, same⟩
      simp [lexemes, same]
  | nested construct others =>
      rcases construct.exists_lexemes_eq_cons with ⟨word, place, more, _, same⟩
      simp [lexemes, same]

namespace CommaTree

variable {Item : Type} {spell : Item → List Lexeme} {mark : Mark}

/-- Each item is shorter than the list, which has a mark after every item. -/
theorem length_lt_of_mem {list : CommaTree Item} {item : Item}
    (isItem : item ∈ list.items) :
    (spell item).length < (list.lexemes spell mark).length := by
  induction list with
  | last only close =>
      rcases List.mem_singleton.1 isItem with rfl
      simp [lexemes]
  | more first comma others ih =>
      rcases List.mem_cons.1 isItem with rfl | isOther
      · simp [lexemes]
      · have shorter := ih isOther
        simp [lexemes]
        omega

/-- Each item has a comma or the closing mark to itself. -/
theorem length_items_le (list : CommaTree Item) :
    list.items.length ≤ (list.lexemes spell mark).length := by
  induction list with
  | last only close => simp [items, lexemes]
  | more first comma others ih =>
      simp only [items, lexemes, List.length_cons, List.length_append]
      omega

end CommaTree

/-- Each import has a lexeme at least. -/
theorem length_imports_le (trees : List ImportTree) :
    trees.length ≤ (trees.flatMap ImportTree.lexemes).length := by
  induction trees with
  | nil => simp
  | cons tree trees ih =>
      simp only [List.flatMap_cons, ImportTree.lexemes, List.length_append, List.length_cons]
      omega

/-- An item in parentheses is shorter than the list with its closing
parenthesis. -/
theorem ParenTree.length_lt_of_mem {Item : Type} {spell : Item → List Lexeme}
    {list : ParenTree Item} {item : Item}
    (isItem : item ∈ list.items) :
    (spell item).length < (list.lexemes spell).length := by
  cases list with
  | empty close => simp [items] at isItem
  | filled items => exact CommaTree.length_lt_of_mem isItem

end TarnBuild
