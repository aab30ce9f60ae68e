import TarnBuild.Proofs.Grammar.Follow

/-!
# One tree for a text

No two trees derive the same lexemes.  For the parts of a unit this needs a
condition on what follows them, since two trees of a part may derive lexemes
of which one goes on where the other ends.  With the conditions the place
where a part ends is decided by its lexemes, and so is what follows it.
-/

namespace TarnBuild

open Text (Span)

/-- Another tree that derives the same lexemes is the same tree, where both
end properly. -/
def Unambiguous {Tree : Type} (lexemes : Tree → List Lexeme)
    (follow : List Lexeme → Prop) (tree : Tree) : Prop :=
  ∀ other rest otherRest, follow rest → follow otherRest →
    lexemes tree ++ rest = lexemes other ++ otherRest →
      tree = other ∧ rest = otherRest

theorem lexeme_cons_inj {token other : Token} {place otherPlace : Span}
    {rest otherRest : List Lexeme} :
    (⟨token, place⟩ : Lexeme) :: rest = ⟨other, otherPlace⟩ :: otherRest ↔
      token = other ∧ place = otherPlace ∧ rest = otherRest := by
  simp [and_assoc]

/-- A token that may be left out is there or not by what its lexemes begin with. -/
theorem unambiguous_optional (token : Token) (place : Option Span) :
    Unambiguous (optionalLexeme token) (Avoids token) place := by
  intro other rest otherRest follows otherFollows same
  cases place with
  | none =>
      cases other with
      | none => exact ⟨rfl, same⟩
      | some otherPlace =>
          simp only [optionalLexeme, List.nil_append, List.singleton_append] at same
          simp [same] at follows
  | some place =>
      cases other with
      | none =>
          simp only [optionalLexeme, List.nil_append, List.singleton_append] at same
          simp [← same] at otherFollows
      | some otherPlace =>
          rcases lexeme_cons_inj.1 same with ⟨_, rfl, rfl⟩
          exact ⟨rfl, rfl⟩

/-! ## Lists -/

section Lists

variable {Tree : Type} {spell : Tree → List Lexeme} (follow : List Lexeme → Prop)

/-- Each item ends before a comma or before the closing mark, which tells
whether it is the last one. -/
theorem unambiguous_commaTree
    (close : Mark)
    (followsComma : ∀ place rest, follow (⟨.mark .comma, place⟩ :: rest))
    (followsClose : ∀ place rest, follow (⟨.mark close, place⟩ :: rest))
    (notComma : close ≠ .comma)
    (list : CommaTree Tree)
    (itemsUnambiguous : ∀ tree ∈ list.items, Unambiguous spell follow tree) :
    Unambiguous (CommaTree.lexemes spell close) (fun _ => True) list := by
  induction list with
  | last item place =>
      intro other rest otherRest _ _ same
      have itemUnambiguous := itemsUnambiguous item (by simp [CommaTree.items])
      cases other with
      | last otherItem otherPlace =>
          simp only [CommaTree.lexemes, List.append_assoc, List.singleton_append] at same
          rcases itemUnambiguous _ _ _ (followsClose _ _) (followsClose _ _) same with
            ⟨rfl, afterItem⟩
          rcases lexeme_cons_inj.1 afterItem with ⟨_, rfl, rfl⟩
          exact ⟨rfl, rfl⟩
      | more otherItem comma others =>
          simp only [CommaTree.lexemes, List.append_assoc, List.cons_append] at same
          rcases itemUnambiguous _ _ _ (followsClose _ _) (followsComma _ _) same with
            ⟨_, afterItem⟩
          rcases lexeme_cons_inj.1 afterItem with ⟨isComma, _⟩
          exact (notComma (Token.mark.inj isComma)).elim
  | more item comma items ih =>
      intro other rest otherRest _ _ same
      have itemUnambiguous := itemsUnambiguous item (by simp [CommaTree.items])
      cases other with
      | last otherItem otherPlace =>
          simp only [CommaTree.lexemes, List.append_assoc, List.cons_append] at same
          rcases itemUnambiguous _ _ _ (followsComma _ _) (followsClose _ _) same with
            ⟨_, afterItem⟩
          rcases lexeme_cons_inj.1 afterItem with ⟨isComma, _⟩
          exact (notComma (Token.mark.inj isComma).symm).elim
      | more otherItem otherComma others =>
          simp only [CommaTree.lexemes, List.append_assoc, List.cons_append] at same
          rcases itemUnambiguous _ _ _ (followsComma _ _) (followsComma _ _) same with
            ⟨rfl, afterItem⟩
          rcases lexeme_cons_inj.1 afterItem with ⟨_, rfl, afterComma⟩
          have itemsLeft : ∀ tree ∈ items.items, Unambiguous spell follow tree :=
            fun tree isItem => itemsUnambiguous tree (by simp [CommaTree.items, isItem])
          rcases ih itemsLeft others rest otherRest trivial trivial afterComma with ⟨rfl, rfl⟩
          exact ⟨rfl, rfl⟩

/-- No item starts with a closing parenthesis, so the first lexeme tells whether
the list is empty. -/
theorem unambiguous_parenTree
    (followsComma : ∀ place rest, follow (⟨.mark .comma, place⟩ :: rest))
    (followsClose : ∀ place rest, follow (⟨.mark .rightParen, place⟩ :: rest))
    (startsItem : ∀ tree rest, Avoids (.mark .rightParen) (spell tree ++ rest))
    (list : ParenTree Tree)
    (itemsUnambiguous : ∀ tree ∈ list.items, Unambiguous spell follow tree) :
    Unambiguous (ParenTree.lexemes spell) (fun _ => True) list := by
  have startsList (items : CommaTree Tree) (rest : List Lexeme) :
      Avoids (.mark .rightParen) (items.lexemes spell .rightParen ++ rest) := by
    cases items with
    | last item place => simpa [CommaTree.lexemes] using startsItem item _
    | more item comma others => simpa [CommaTree.lexemes] using startsItem item _
  intro other rest otherRest _ _ same
  cases list with
  | empty place =>
      cases other with
      | empty otherPlace =>
          rcases lexeme_cons_inj.1 same with ⟨_, rfl, rfl⟩
          exact ⟨rfl, rfl⟩
      | filled items =>
          have starts := startsList items otherRest
          simp only [ParenTree.lexemes, List.singleton_append] at same
          simp [← same] at starts
  | filled items =>
      cases other with
      | empty otherPlace =>
          have starts := startsList items rest
          simp only [ParenTree.lexemes, List.singleton_append] at same
          simp [same] at starts
      | filled others =>
          have unambiguous := unambiguous_commaTree follow .rightParen followsComma
            followsClose (by decide) items itemsUnambiguous
          rcases unambiguous others rest otherRest trivial trivial same with ⟨rfl, rfl⟩
          exact ⟨rfl, rfl⟩

end Lists

/-! ## Types -/

/-- The parts of a type stand in lists, so the induction is on a bound for the
length and not on the tree. -/
theorem TypeTree.unambiguous_of_length_le (bound : Nat) :
    ∀ tree : TypeTree, tree.lexemes.length ≤ bound →
      Unambiguous TypeTree.lexemes EndsType tree := by
  induction bound with
  | zero =>
      intro tree short
      cases tree <;> simp [TypeTree.lexemes] at short
  | succ bound ih =>
      intro tree short other rest otherRest follows otherFollows same
      have parenUnambiguous
          (list : ParenTree TypeTree)
          (within : (list.lexemes TypeTree.lexemes).length ≤ bound) :
          Unambiguous (ParenTree.lexemes TypeTree.lexemes) (fun _ => True) list := by
        apply unambiguous_parenTree EndsType (by simp) (by simp) TypeTree.avoids_rightParen
        intro item isItem
        have shorter : item.lexemes.length < (list.lexemes TypeTree.lexemes).length :=
          ParenTree.length_lt_of_mem isItem
        exact ih item (by omega)
      cases tree with
      | primitive type place =>
          cases other with
          | primitive otherType otherPlace =>
              rcases lexeme_cons_inj.1 same with ⟨⟨⟩, rfl, rfl⟩
              exact ⟨rfl, rfl⟩
          | _ => simp [TypeTree.lexemes] at same
      | bare name place =>
          cases other with
          | bare otherName otherPlace =>
              rcases lexeme_cons_inj.1 same with ⟨⟨⟩, rfl, rfl⟩
              exact ⟨rfl, rfl⟩
          | applied otherName otherPlace less arguments =>
              rcases lexeme_cons_inj.1 same with ⟨⟨⟩, rfl, rfl⟩
              simpa using follows.avoids_less
          | _ => simp [TypeTree.lexemes] at same
      | applied name place less arguments =>
          cases other with
          | bare otherName otherPlace =>
              rcases lexeme_cons_inj.1 same with ⟨⟨⟩, rfl, rfl⟩
              simpa using otherFollows.avoids_less
          | applied otherName otherPlace otherLess others =>
              simp only [TypeTree.lexemes, TypeTree.commaLexemes_eq, List.length_cons] at short
              simp only [TypeTree.lexemes, TypeTree.commaLexemes_eq, List.cons_append] at same
              rcases lexeme_cons_inj.1 same with ⟨⟨⟩, rfl, afterName⟩
              rcases lexeme_cons_inj.1 afterName with ⟨_, rfl, afterLess⟩
              have itemsUnambiguous : ∀ item ∈ arguments.items,
                  Unambiguous TypeTree.lexemes EndsType item := by
                intro item isItem
                have shorter : item.lexemes.length <
                    (arguments.lexemes TypeTree.lexemes .greater).length :=
                  CommaTree.length_lt_of_mem isItem
                exact ih item (by omega)
              have unambiguous := unambiguous_commaTree EndsType .greater (by simp) (by simp)
                (by decide) arguments itemsUnambiguous
              rcases unambiguous _ _ _ trivial trivial afterLess with ⟨rfl, rfl⟩
              exact ⟨rfl, rfl⟩
          | _ => simp [TypeTree.lexemes] at same
      | group left elements =>
          simp only [TypeTree.lexemes, TypeTree.parenLexemes_eq, List.length_cons] at short
          have unambiguous := parenUnambiguous elements (by omega)
          cases other with
          | group otherLeft others =>
              simp only [TypeTree.lexemes, TypeTree.parenLexemes_eq, List.cons_append] at same
              rcases lexeme_cons_inj.1 same with ⟨_, rfl, afterLeft⟩
              rcases unambiguous _ _ _ trivial trivial afterLeft with ⟨rfl, rfl⟩
              exact ⟨rfl, rfl⟩
          | function otherLeft parameters arrow result =>
              simp only [TypeTree.lexemes, TypeTree.parenLexemes_eq, List.cons_append,
                List.append_assoc] at same
              rcases lexeme_cons_inj.1 same with ⟨_, rfl, afterLeft⟩
              rcases unambiguous _ _ _ trivial trivial afterLeft with ⟨rfl, rfl⟩
              simpa using follows.avoids_arrow
          | _ => simp [TypeTree.lexemes] at same
      | function left parameters arrow result =>
          simp only [TypeTree.lexemes, TypeTree.parenLexemes_eq, List.length_cons,
            List.length_append] at short
          have unambiguous := parenUnambiguous parameters (by omega)
          cases other with
          | group otherLeft others =>
              simp only [TypeTree.lexemes, TypeTree.parenLexemes_eq, List.cons_append,
                List.append_assoc] at same
              rcases lexeme_cons_inj.1 same with ⟨_, rfl, afterLeft⟩
              rcases unambiguous _ _ _ trivial trivial afterLeft with ⟨rfl, rfl⟩
              simpa using otherFollows.avoids_arrow
          | function otherLeft others otherArrow otherResult =>
              simp only [TypeTree.lexemes, TypeTree.parenLexemes_eq, List.cons_append,
                List.append_assoc] at same
              rcases lexeme_cons_inj.1 same with ⟨_, rfl, afterLeft⟩
              rcases unambiguous _ _ _ trivial trivial afterLeft with ⟨rfl, afterList⟩
              rcases lexeme_cons_inj.1 afterList with ⟨_, rfl, afterArrow⟩
              rcases ih result (by omega) _ _ _ follows otherFollows afterArrow with
                ⟨rfl, rfl⟩
              exact ⟨rfl, rfl⟩
          | _ => simp [TypeTree.lexemes] at same

/-- Types of one spelling are the same type, where no arrow and no arguments
follow. -/
theorem TypeTree.unambiguous (tree : TypeTree) :
    Unambiguous TypeTree.lexemes EndsType tree :=
  TypeTree.unambiguous_of_length_le tree.lexemes.length tree (Nat.le_refl _)

/-! ## Constants and functions -/

/-- Two expressions of one spelling end at the same lexeme, because a run that
has ended cannot go on. -/
theorem ExpressionTree.unambiguous (tree : ExpressionTree) :
    Unambiguous ExpressionTree.lexemes EndsExpression tree := by
  intro other rest otherRest ends otherEnds same
  have run := tree.expressionRun_append ends
  rw [same, other.expressionRun_append otherEnds] at run
  rcases tree with ⟨lexemes, isExpression⟩
  rcases other with ⟨otherLexemes, isOtherExpression⟩
  cases run
  exact ⟨rfl, rfl⟩

theorem TypeParametersTree.unambiguous (tree : TypeParametersTree) :
    Unambiguous TypeParametersTree.lexemes (Avoids (.mark .less)) tree := by
  intro other rest otherRest noLess otherNoLess same
  cases tree with
  | absent =>
      cases other with
      | absent => exact ⟨rfl, same⟩
      | listed less list =>
          simp only [TypeParametersTree.lexemes, List.nil_append] at same
          simp [same] at noLess
  | listed less list =>
      cases other with
      | absent =>
          simp only [TypeParametersTree.lexemes, List.nil_append] at same
          simp [← same] at otherNoLess
      | listed otherLess others =>
          have namesUnambiguous : ∀ tree ∈ list.items,
              Unambiguous TypeParameterTree.lexemes (fun _ => True) tree := by
            rintro ⟨name, place⟩ _ ⟨otherName, otherPlace⟩ rest otherRest _ _ same
            rcases lexeme_cons_inj.1 same with ⟨⟨⟩, rfl, rfl⟩
            exact ⟨rfl, rfl⟩
          have listUnambiguous := unambiguous_commaTree (fun _ => True) .greater (by simp)
            (by simp) (by decide) list namesUnambiguous
          rcases lexeme_cons_inj.1 same with ⟨_, rfl, afterLess⟩
          rcases listUnambiguous _ _ _ trivial trivial afterLess with ⟨rfl, rfl⟩
          exact ⟨rfl, rfl⟩

/-- The first lexeme tells whether there is an annotation, and what follows does
not go on with its type. -/
theorem AnnotationTree.unambiguous (tree : AnnotationTree) :
    Unambiguous AnnotationTree.lexemes
      (fun rest => Avoids (.mark .colon) rest ∧ EndsType rest) tree := by
  rintro other rest otherRest ⟨noColon, ends⟩ ⟨otherNoColon, otherEnds⟩ same
  cases tree with
  | absent =>
      cases other with
      | absent => exact ⟨rfl, same⟩
      | given colon type =>
          simp only [AnnotationTree.lexemes, List.nil_append] at same
          simp [same] at noColon
  | given colon type =>
      cases other with
      | absent =>
          simp only [AnnotationTree.lexemes, List.nil_append] at same
          simp [← same] at otherNoColon
      | given otherColon otherType =>
          rcases lexeme_cons_inj.1 same with ⟨_, rfl, afterColon⟩
          rcases type.unambiguous _ _ _ ends otherEnds afterColon with ⟨rfl, rfl⟩
          exact ⟨rfl, rfl⟩

theorem ConstantTree.unambiguous (tree : ConstantTree) :
    Unambiguous ConstantTree.lexemes EndsExpression tree := by
  intro other rest otherRest ends otherEnds same
  rcases tree with ⟨name, place, typing, equal, value⟩
  rcases other with ⟨otherName, otherPlace, otherTyping, otherEqual, otherValue⟩
  simp only [ConstantTree.lexemes, List.cons_append, List.append_assoc] at same
  rcases lexeme_cons_inj.1 same with ⟨⟨⟩, rfl, afterName⟩
  rcases typing.unambiguous _ _ _ (by simp) (by simp) afterName with ⟨rfl, afterTyping⟩
  rcases lexeme_cons_inj.1 afterTyping with ⟨_, rfl, afterEqual⟩
  rcases value.unambiguous _ _ _ ends otherEnds afterEqual with ⟨rfl, rfl⟩
  exact ⟨rfl, rfl⟩

theorem ParameterTree.unambiguous (tree : ParameterTree) :
    Unambiguous ParameterTree.lexemes EndsType tree := by
  intro other rest otherRest ends otherEnds same
  rcases tree with ⟨name, place, colon, type⟩
  rcases other with ⟨otherName, otherPlace, otherColon, otherType⟩
  simp only [ParameterTree.lexemes, List.cons_append] at same
  rcases lexeme_cons_inj.1 same with ⟨⟨⟩, rfl, afterName⟩
  rcases lexeme_cons_inj.1 afterName with ⟨_, rfl, afterColon⟩
  rcases type.unambiguous _ _ _ ends otherEnds afterColon with ⟨rfl, rfl⟩
  exact ⟨rfl, rfl⟩

/-- The parts of a function end one after the other, each where the mark after
it stands. -/
theorem FunctionTree.unambiguous (tree : FunctionTree) :
    Unambiguous FunctionTree.lexemes EndsExpression tree := by
  intro other rest otherRest ends otherEnds same
  have parametersUnambiguous :
      Unambiguous (ParenTree.lexemes ParameterTree.lexemes) (fun _ => True)
        tree.parameters :=
    unambiguous_parenTree EndsType (by simp) (by simp) ParameterTree.avoids_rightParen
      tree.parameters (fun parameter _ => parameter.unambiguous)
  rcases tree with
    ⟨name, place, typeParameters, left, parameters, colon, result, equal, body⟩
  rcases other with
    ⟨otherName, otherPlace, otherTypeParameters, otherLeft, otherParameters, otherColon,
      otherResult, otherEqual, otherBody⟩
  simp only [FunctionTree.lexemes, List.cons_append, List.append_assoc] at same
  rcases lexeme_cons_inj.1 same with ⟨⟨⟩, rfl, afterName⟩
  rcases typeParameters.unambiguous _ _ _ (by simp) (by simp) afterName with
    ⟨rfl, afterTypeParameters⟩
  rcases lexeme_cons_inj.1 afterTypeParameters with ⟨_, rfl, afterLeft⟩
  rcases parametersUnambiguous _ _ _ trivial trivial afterLeft with ⟨rfl, afterParameters⟩
  rcases lexeme_cons_inj.1 afterParameters with ⟨_, rfl, afterColon⟩
  rcases result.unambiguous _ _ _ (by simp) (by simp) afterColon with ⟨rfl, afterResult⟩
  rcases lexeme_cons_inj.1 afterResult with ⟨_, rfl, afterEqual⟩
  rcases body.unambiguous _ _ _ ends otherEnds afterEqual with ⟨rfl, rfl⟩
  exact ⟨rfl, rfl⟩

/-! ## Members and constructs -/

/-- The first lexeme tells a constant from a function. -/
theorem DeclarationTree.unambiguous (tree : DeclarationTree) :
    Unambiguous DeclarationTree.lexemes EndsExpression tree := by
  intro other rest otherRest ends otherEnds same
  cases tree with
  | constant word constant =>
      cases other with
      | constant otherWord otherConstant =>
          rcases lexeme_cons_inj.1 same with ⟨_, rfl, afterWord⟩
          rcases constant.unambiguous _ _ _ ends otherEnds afterWord with ⟨rfl, rfl⟩
          exact ⟨rfl, rfl⟩
      | function otherWord otherFunction => simp [DeclarationTree.lexemes] at same
  | function word function =>
      cases other with
      | constant otherWord otherConstant => simp [DeclarationTree.lexemes] at same
      | function otherWord otherFunction =>
          rcases lexeme_cons_inj.1 same with ⟨_, rfl, afterWord⟩
          rcases function.unambiguous _ _ _ ends otherEnds afterWord with ⟨rfl, rfl⟩
          exact ⟨rfl, rfl⟩

/-- A member is private or not by its first lexeme, and its semicolon is its
own. -/
theorem OwnMemberTree.unambiguous (tree : OwnMemberTree) :
    Unambiguous OwnMemberTree.lexemes EndsMember tree := by
  rintro other rest otherRest ⟨ends, noSemicolon⟩ ⟨otherEnds, otherNoSemicolon⟩ same
  rcases tree with ⟨word, declaration, semicolon⟩
  rcases other with ⟨otherWord, otherDeclaration, otherSemicolon⟩
  simp only [OwnMemberTree.lexemes, List.append_assoc] at same
  rcases unambiguous_optional _ word _ _ _ (declaration.avoids_privateWord _)
    (otherDeclaration.avoids_privateWord _) same with ⟨rfl, afterWord⟩
  rcases declaration.unambiguous _ _ _ (endsExpression_optional semicolon ends)
    (endsExpression_optional otherSemicolon otherEnds) afterWord with
    ⟨rfl, afterDeclaration⟩
  rcases unambiguous_optional _ semicolon _ _ _ noSemicolon otherNoSemicolon
    afterDeclaration with ⟨rfl, rfl⟩
  exact ⟨rfl, rfl⟩

theorem HeadTree.unambiguous (tree : HeadTree) :
    Unambiguous HeadTree.lexemes (fun _ => True) tree := by
  intro other rest otherRest _ _ same
  rcases tree with ⟨kind, word, name, place, typeParameters, left⟩
  rcases other with
    ⟨otherKind, otherWord, otherName, otherPlace, otherTypeParameters, otherLeft⟩
  simp only [HeadTree.lexemes, List.cons_append, List.append_assoc, List.nil_append] at same
  rcases lexeme_cons_inj.1 same with ⟨sameKeyword, rfl, afterWord⟩
  rcases lexeme_cons_inj.1 afterWord with ⟨⟨⟩, rfl, afterName⟩
  rcases typeParameters.unambiguous _ _ _ (by simp) (by simp) afterName with
    ⟨rfl, afterTypeParameters⟩
  rcases lexeme_cons_inj.1 afterTypeParameters with ⟨_, rfl, rfl⟩
  have sameKind : kind = otherKind := by
    cases kind <;> cases otherKind <;> simp [ConstructKind.keyword] at sameKeyword ⊢
  exact ⟨by rw [sameKind], rfl⟩

mutual

/-- A construct ends with its closing brace, so nothing has to be asked of what
follows. -/
theorem ConstructTree.unambiguous :
    ∀ tree : ConstructTree, Unambiguous ConstructTree.lexemes (fun _ => True) tree
  | .mk head members => by
      rintro ⟨otherHead, otherMembers⟩ rest otherRest _ _ same
      simp only [ConstructTree.lexemes, List.append_assoc] at same
      rcases head.unambiguous _ _ _ trivial trivial same with ⟨rfl, afterHead⟩
      rcases MembersTree.unambiguous members _ _ _ trivial trivial afterHead with ⟨rfl, rfl⟩
      exact ⟨rfl, rfl⟩

/-- The first lexeme of each member tells what kind of member it is, or that
there are no more. -/
theorem MembersTree.unambiguous :
    ∀ tree : MembersTree, Unambiguous MembersTree.lexemes (fun _ => True) tree
  | .close right => by
      intro other rest otherRest _ _ same
      cases other with
      | close otherRight =>
          rcases lexeme_cons_inj.1 same with ⟨_, rfl, rfl⟩
          exact ⟨rfl, rfl⟩
      | own member others =>
          rcases member.exists_lexemes_eq_cons with ⟨word, place, more, _, starts⟩
          simp [MembersTree.lexemes, starts] at same
      | nested construct others =>
          rcases construct.exists_lexemes_eq_cons with ⟨word, place, more, _, starts⟩
          simp [MembersTree.lexemes, starts] at same
  | .own member others => by
      intro other rest otherRest _ _ same
      cases other with
      | close otherRight =>
          rcases member.exists_lexemes_eq_cons with ⟨word, place, more, _, starts⟩
          simp [MembersTree.lexemes, starts] at same
      | own otherMember otherOthers =>
          simp only [MembersTree.lexemes, List.append_assoc] at same
          rcases member.unambiguous _ _ _ (others.endsMember _) (otherOthers.endsMember _)
            same with ⟨rfl, afterMember⟩
          rcases MembersTree.unambiguous others _ _ _ trivial trivial afterMember with
            ⟨rfl, rfl⟩
          exact ⟨rfl, rfl⟩
      | nested construct otherOthers =>
          exact (member.lexemes_append_ne_construct construct (by
            simpa [MembersTree.lexemes] using same)).elim
  | .nested construct others => by
      intro other rest otherRest _ _ same
      cases other with
      | close otherRight =>
          rcases construct.exists_lexemes_eq_cons with ⟨word, place, more, _, starts⟩
          simp [MembersTree.lexemes, starts] at same
      | own member otherOthers =>
          exact (member.lexemes_append_ne_construct construct (by
            simpa [MembersTree.lexemes] using same.symm)).elim
      | nested otherConstruct otherOthers =>
          simp only [MembersTree.lexemes, List.append_assoc] at same
          rcases ConstructTree.unambiguous construct _ _ _ trivial trivial same with
            ⟨rfl, afterConstruct⟩
          rcases MembersTree.unambiguous others _ _ _ trivial trivial afterConstruct with
            ⟨rfl, rfl⟩
          exact ⟨rfl, rfl⟩

end

/-! ## Units -/

/-- Imports end where no further import follows. -/
theorem imports_unambiguous
    {trees others : List ImportTree} {rest otherRest : List Lexeme}
    (noImport : Avoids (.keyword .importWord) rest)
    (noSemicolon : Avoids (.mark .semicolon) rest)
    (otherNoImport : Avoids (.keyword .importWord) otherRest)
    (otherNoSemicolon : Avoids (.mark .semicolon) otherRest)
    (same : trees.flatMap ImportTree.lexemes ++ rest =
      others.flatMap ImportTree.lexemes ++ otherRest) :
    trees = others ∧ rest = otherRest := by
  induction trees generalizing others with
  | nil =>
      cases others with
      | nil => exact ⟨rfl, same⟩
      | cons other others =>
          simp only [List.flatMap_nil, List.nil_append, List.flatMap_cons, ImportTree.lexemes,
            List.cons_append] at same
          simp [same] at noImport
  | cons tree trees ih =>
      cases others with
      | nil =>
          simp only [List.flatMap_nil, List.nil_append, List.flatMap_cons, ImportTree.lexemes,
            List.cons_append] at same
          simp [← same] at otherNoImport
      | cons other others =>
          rcases tree with ⟨word, name, place, semicolon⟩
          rcases other with ⟨otherWord, otherName, otherPlace, otherSemicolon⟩
          simp only [List.flatMap_cons, ImportTree.lexemes, List.cons_append,
            List.append_assoc] at same
          rcases lexeme_cons_inj.1 same with ⟨_, rfl, afterWord⟩
          rcases lexeme_cons_inj.1 afterWord with ⟨⟨⟩, rfl, afterName⟩
          rcases unambiguous_optional _ semicolon _ _ _
            (avoids_semicolon_imports trees noSemicolon)
            (avoids_semicolon_imports others otherNoSemicolon) afterName with
            ⟨rfl, afterSemicolon⟩
          rcases ih afterSemicolon with ⟨rfl, rfl⟩
          exact ⟨rfl, rfl⟩

/-- No lexemes are derived by two trees. -/
theorem UnitTree.lexemes_injective : Function.Injective UnitTree.lexemes := by
  rintro ⟨imports, body⟩ ⟨otherImports, otherBody⟩ same
  have noImport (tree : ConstructTree) : Avoids (.keyword .importWord) tree.lexemes := by
    simpa using tree.avoids (by decide) (by decide) []
  have noSemicolon (tree : ConstructTree) : Avoids (.mark .semicolon) tree.lexemes := by
    simpa using tree.avoids (by decide) (by decide) []
  rcases imports_unambiguous (noImport body) (noSemicolon body) (noImport otherBody)
    (noSemicolon otherBody) same with ⟨rfl, sameBody⟩
  have bodyUnambiguous := body.unambiguous otherBody [] [] trivial trivial
  rcases bodyUnambiguous (by simpa using sameBody) with ⟨rfl, _⟩
  rfl

end TarnBuild
