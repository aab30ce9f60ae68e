import TarnBuild.Proofs.Grammar.Expression

/-!
# Open constructs

Which constructs are open at a place of a source is decided by the tokens
before it.  A brace opens or closes a construct unless it stands in an
expression, and an expression starts after each equal sign outside of
expressions.

A whole member, or a whole construct, leaves as many constructs open as there
were before it, and within a constant or a function their number never
changes.
-/

namespace TarnBuild

open Text (Span)

/-- How far reading has come into constructs and expressions. -/
structure Scope where
  /-- The number of constructs whose braces are open. -/
  constructs : Nat
  /-- The number of open delimiters of the expression, inside of one. -/
  expression : Option Nat

namespace Scope

/-- The scope after a token that does not belong to an expression. -/
def outside (constructs : Nat) : Token → Scope
  | .mark .leftBrace => ⟨constructs + 1, none⟩
  | .mark .rightBrace => ⟨constructs - 1, none⟩
  | .mark .equal => ⟨constructs, some 0⟩
  | _ => ⟨constructs, none⟩

/-- The scope after one more token.  A token that ends the expression counts as
one outside of it. -/
def next (scope : Scope) (token : Token) : Scope :=
  match scope.expression.bind (openAfter · token) with
  | some depth => ⟨scope.constructs, some depth⟩
  | none => outside scope.constructs token

/-- The scope after some lexemes. -/
def after (scope : Scope) (lexemes : List Lexeme) : Scope :=
  lexemes.foldl (fun scope lexeme => scope.next lexeme.token) scope

@[simp]
theorem after_nil (scope : Scope) : scope.after [] = scope := rfl

@[simp]
theorem after_cons (scope : Scope) (lexeme : Lexeme) (lexemes : List Lexeme) :
    scope.after (lexeme :: lexemes) = (scope.next lexeme.token).after lexemes := rfl

@[simp]
theorem after_append (scope : Scope) (lexemes others : List Lexeme) :
    scope.after (lexemes ++ others) = (scope.after lexemes).after others :=
  List.foldl_append

end Scope

/-- The number of constructs that some lexemes at the start of a source leave
open. -/
def openConstructs (lexemes : List Lexeme) : Nat :=
  (Scope.mk 0 none |>.after lexemes).constructs

namespace Scope

variable {count depth : Nat} {scope : Scope} {lexemes others : List Lexeme}

/-! ## Steps -/

/-- Between two members, where an expression may have come to its end. -/
inductive Rests (count : Nat) : Scope → Prop where
  | outside : Rests count ⟨count, none⟩
  | expression : Rests count ⟨count, some 0⟩

theorem Rests.constructs_eq (rests : Rests count scope) : scope.constructs = count := by
  cases rests <;> rfl

/-- Between two members a keyword ends the expression before it, if there is
one. -/
theorem Rests.next_keyword (rests : Rests count scope) {word : Keyword}
    (notImport : word ≠ .importWord) : scope.next (.keyword word) = ⟨count, none⟩ := by
  cases rests <;> cases word <;> first | rfl | exact (notImport rfl).elim

/-- Between two members a closing brace closes a construct. -/
theorem Rests.next_rightBrace (rests : Rests count scope) :
    scope.next (.mark .rightBrace) = ⟨count - 1, none⟩ := by
  cases rests <;> rfl

theorem Rests.next_semicolon (rests : Rests count scope) :
    scope.next (.mark .semicolon) = ⟨count, none⟩ := by
  cases rests <;> rfl

/-- A member stays at its end with a semicolon or without. -/
theorem Rests.after_optional (rests : Rests count scope) (semicolon : Option Span) :
    Rests count (scope.after (optionalLexeme (.mark .semicolon) semicolon)) := by
  cases semicolon with
  | none => exact rests
  | some place =>
      rw [optionalLexeme, after_cons, rests.next_semicolon]
      exact .outside

/-- All fronts of some lexemes leave the same number of constructs open. -/
def Keeps (count : Nat) (scope : Scope) (lexemes : List Lexeme) : Prop :=
  ∀ front, front <+: lexemes → (scope.after front).constructs = count

theorem keeps_nil (same : scope.constructs = count) : Keeps count scope [] := by
  intro front isFront
  rw [List.prefix_nil.1 isFront]
  exact same

theorem keeps_cons
    {lexeme : Lexeme}
    (same : scope.constructs = count)
    (keeps : Keeps count (scope.next lexeme.token) lexemes) :
    Keeps count scope (lexeme :: lexemes) := by
  intro front isFront
  cases front with
  | nil => exact same
  | cons first front =>
      rcases List.cons_prefix_cons.1 isFront with ⟨rfl, isInside⟩
      exact keeps front isInside

theorem Keeps.append
    (first : Keeps count scope lexemes)
    (second : Keeps count (scope.after lexemes) others) :
    Keeps count scope (lexemes ++ others) := by
  intro front isFront
  rcases List.prefix_or_prefix_of_prefix isFront (List.prefix_append _ _) with
    isInside | ⟨further, rfl⟩
  · exact first front isInside
  · rw [after_append]
    exact second further ((List.prefix_append_right_inj _).1 isFront)

theorem Rests.keeps_optional (rests : Rests count scope) (semicolon : Option Span) :
    Keeps count scope (optionalLexeme (.mark .semicolon) semicolon) := by
  cases semicolon with
  | none => exact keeps_nil rests.constructs_eq
  | some place =>
      refine keeps_cons rests.constructs_eq (keeps_nil ?_)
      rw [rests.next_semicolon]

/-! ## Expressions -/

/-- Within an expression only its own delimiters are counted, and the count is
the balance of the lexemes. -/
theorem after_of_continues (continues : Continues depth lexemes) :
    ∃ opened : Nat, (opened : Int) = depth + balance lexemes ∧
      (Scope.mk count (some depth)).after lexemes = ⟨count, some opened⟩ := by
  induction lexemes generalizing depth with
  | nil => exact ⟨depth, by simp, rfl⟩
  | cons lexeme lexemes ih =>
      rcases continues_cons_iff.1 continues with ⟨opened, opens, continues⟩
      rcases ih continues with ⟨final, final_eq, after_eq⟩
      refine ⟨final, ?_, ?_⟩
      · rw [final_eq, (openAfter_eq_some_iff.1 opens).1, balance_cons, add_assoc]
      · rw [after_cons, next, Option.bind_some, opens, after_eq]

/-- Lexemes within an expression open and close no construct, whatever braces
there are among them. -/
theorem keeps_of_continues (continues : Continues depth lexemes) :
    Keeps count ⟨count, some depth⟩ lexemes := by
  induction lexemes generalizing depth with
  | nil => exact keeps_nil rfl
  | cons lexeme lexemes ih =>
      rcases continues_cons_iff.1 continues with ⟨opened, opens, continues⟩
      refine keeps_cons rfl ?_
      rw [next, Option.bind_some, opens]
      exact ih continues

/-- A whole expression leaves none of its delimiters open. -/
theorem after_expression (tree : ExpressionTree) :
    (Scope.mk count (some 0)).after tree.lexemes = ⟨count, some 0⟩ := by
  rcases isExpression_iff.1 tree.isExpression with ⟨_, continues, closed⟩
  rcases after_of_continues continues with ⟨opened, opened_eq, after_eq⟩
  rw [closed, Int.add_zero] at opened_eq
  rw [after_eq, Int.ofNat_inj.1 opened_eq]

end Scope

/-! ## Plain lexemes -/

/-- Outside of expressions the token opens and closes nothing and starts no expression. -/
def Token.IsPlain (token : Token) : Prop :=
  ∀ count, Scope.next ⟨count, none⟩ token = ⟨count, none⟩

/-- Some lexemes all have plain tokens. -/
def Plain (lexemes : List Lexeme) : Prop :=
  ∀ lexeme ∈ lexemes, lexeme.token.IsPlain

namespace Plain

variable {lexemes others : List Lexeme} {count : Nat}

@[simp]
theorem nil : Plain [] := nofun

@[simp]
theorem cons_iff {lexeme : Lexeme} :
    Plain (lexeme :: lexemes) ↔ lexeme.token.IsPlain ∧ Plain lexemes :=
  List.forall_mem_cons

@[simp]
theorem append_iff : Plain (lexemes ++ others) ↔ Plain lexemes ∧ Plain others :=
  List.forall_mem_append

@[simp]
theorem upper (name : String) : (Token.upper name).IsPlain := fun _ => rfl

@[simp]
theorem lower (name : String) : (Token.lower name).IsPlain := fun _ => rfl

@[simp]
theorem primitive (type : Primitive) : (Token.primitive type).IsPlain := fun _ => rfl

@[simp]
theorem keyword (word : Keyword) : (Token.keyword word).IsPlain := fun _ => rfl

/-- All marks are plain but the braces and the equal sign. -/
@[simp]
theorem mark_iff {sign : Mark} :
    (Token.mark sign).IsPlain ↔
      sign ≠ .leftBrace ∧ sign ≠ .rightBrace ∧ sign ≠ .equal := by
  constructor
  · intro isPlain
    refine ⟨?_, ?_, ?_⟩
    · rintro rfl
      cases isPlain 0
    · rintro rfl
      cases isPlain 1
    · rintro rfl
      cases isPlain 0
  · rintro ⟨notLeft, notRight, notEqual⟩ count
    cases sign <;> first | rfl | contradiction

/-- Plain lexemes outside of expressions leave the scope as it is. -/
theorem after_eq (plain : Plain lexemes) :
    (Scope.mk count none).after lexemes = ⟨count, none⟩ := by
  induction lexemes with
  | nil => rfl
  | cons lexeme lexemes ih =>
      rcases cons_iff.1 plain with ⟨isPlain, others⟩
      rw [Scope.after_cons, isPlain, ih others]

theorem keeps (plain : Plain lexemes) : Scope.Keeps count ⟨count, none⟩ lexemes := by
  rintro front ⟨further, rfl⟩
  rw [(append_iff.1 plain).1.after_eq]

end Plain

/-! ## Types and names -/

/-- A list is plain if its items and its closing mark are. -/
theorem CommaTree.plain
    {Item : Type} {spell : Item → List Lexeme} {close : Mark}
    (isPlain : (Token.mark close).IsPlain) (list : CommaTree Item)
    (items : ∀ item ∈ list.items, Plain (spell item)) :
    Plain (list.lexemes spell close) := by
  induction list with
  | last item place =>
      simpa [lexemes, isPlain] using items item (by simp [CommaTree.items])
  | more item comma others ih =>
      have first := items item (by simp [CommaTree.items])
      have rest := ih fun other isOther => items other (by simp [CommaTree.items, isOther])
      simpa [lexemes] using ⟨first, rest⟩

theorem ParenTree.plain
    {Item : Type} {spell : Item → List Lexeme} (list : ParenTree Item)
    (items : ∀ item ∈ list.items, Plain (spell item)) :
    Plain (list.lexemes spell) := by
  cases list with
  | empty close => simp [lexemes]
  | filled list => exact list.plain (by simp) items

mutual

/-- No type holds a brace or an equal sign. -/
theorem TypeTree.plain : ∀ tree : TypeTree, Plain tree.lexemes
  | .primitive type place => by simp [TypeTree.lexemes]
  | .bare name place => by simp [TypeTree.lexemes]
  | .applied name place less arguments => by
      have rest := commaPlain .greater (by simp) arguments
      simpa [TypeTree.lexemes] using rest
  | .group left elements => by
      have rest := parenPlain elements
      simpa [TypeTree.lexemes] using rest
  | .function left parameters arrow result => by
      have first := parenPlain parameters
      have rest := result.plain
      simpa [TypeTree.lexemes] using ⟨first, rest⟩

theorem TypeTree.commaPlain (close : Mark) (isPlain : (Token.mark close).IsPlain) :
    ∀ list : CommaTree TypeTree, Plain (list.lexemes TypeTree.lexemes close)
  | .last item place => by
      have first := item.plain
      simpa [CommaTree.lexemes, isPlain] using first
  | .more item comma others => by
      have first := item.plain
      have rest := commaPlain close isPlain others
      simpa [CommaTree.lexemes] using ⟨first, rest⟩

theorem TypeTree.parenPlain :
    ∀ list : ParenTree TypeTree, Plain (list.lexemes TypeTree.lexemes)
  | .empty close => by simp [ParenTree.lexemes]
  | .filled list => commaPlain .rightParen (by simp) list

end

theorem TypeParametersTree.plain (tree : TypeParametersTree) : Plain tree.lexemes := by
  cases tree with
  | absent => exact .nil
  | listed less names =>
      have rest : Plain (names.lexemes TypeParameterTree.lexemes .greater) :=
        names.plain (by simp) fun item _ => by simp [TypeParameterTree.lexemes]
      simpa [lexemes] using rest

theorem AnnotationTree.plain (tree : AnnotationTree) : Plain tree.lexemes := by
  cases tree with
  | absent => exact .nil
  | given colon type => simpa [lexemes] using type.plain

theorem ParameterTree.plain (tree : ParameterTree) : Plain tree.lexemes := by
  simpa [lexemes] using tree.type.plain

theorem ImportTree.plain (tree : ImportTree) : Plain tree.lexemes := by
  cases tree with
  | mk word name place semicolon => cases semicolon <;> simp [lexemes, optionalLexeme]

/-! ## Members and constructs -/

/-- A constant or a function is plain up to its equal sign. -/
theorem DeclarationTree.exists_lexemes_eq (tree : DeclarationTree) :
    ∃ word place header equal, ∃ expression : ExpressionTree, word ≠ Keyword.importWord ∧
      Plain header ∧ tree.lexemes = ⟨.keyword word, place⟩ :: (header ++
        ⟨.mark .equal, equal⟩ :: expression.lexemes) := by
  cases tree with
  | constant word tree =>
      have annotation := tree.annotation.plain
      refine ⟨.valWord, word, ⟨.lower tree.name, tree.place⟩ :: tree.annotation.lexemes,
        tree.equal, tree.value, nofun, by simpa using annotation, ?_⟩
      simp [lexemes, ConstantTree.lexemes]
  | function word tree =>
      have typeParameters := tree.typeParameters.plain
      have parameters := tree.parameters.plain fun item _ => item.plain
      have result := tree.result.plain
      refine ⟨.functionWord, word, ⟨.lower tree.name, tree.place⟩ ::
        (tree.typeParameters.lexemes ++ ⟨.mark .leftParen, tree.left⟩ ::
          (tree.parameters.lexemes ParameterTree.lexemes ++ ⟨.mark .colon, tree.colon⟩ ::
            tree.result.lexemes)), tree.equal, tree.body, nofun, ?_, ?_⟩
      · simpa using ⟨typeParameters, parameters, result⟩
      · simp [lexemes, FunctionTree.lexemes]

namespace OwnMemberTree

open Scope (Rests Keeps)

variable {count : Nat} {scope : Scope}

/-- A member is a keyword, a plain header, an equal sign and an expression, with
or without a semicolon. -/
theorem exists_lexemes_eq (tree : OwnMemberTree) :
    ∃ word place header equal, ∃ expression : ExpressionTree, word ≠ Keyword.importWord ∧
      Plain header ∧ tree.lexemes = ⟨.keyword word, place⟩ :: (header ++
        ⟨.mark .equal, equal⟩ ::
          (expression.lexemes ++ optionalLexeme (.mark .semicolon) tree.semicolon)) := by
  rcases tree.declaration.exists_lexemes_eq with
    ⟨word, place, header, equal, expression, notImport, plain, same⟩
  rcases tree with ⟨privateWord, declaration, semicolon⟩
  cases privateWord with
  | some hidden =>
      refine ⟨.privateWord, hidden, ⟨.keyword word, place⟩ :: header, equal, expression, nofun,
        by simpa using plain, ?_⟩
      simp [lexemes, optionalLexeme, same]
  | none =>
      refine ⟨word, place, header, equal, expression, notImport, plain, ?_⟩
      simp [lexemes, optionalLexeme, same]

/-- Within a member no construct is opened or closed. -/
theorem keeps (rests : Rests count scope) (tree : OwnMemberTree) :
    Keeps count scope tree.lexemes := by
  rcases tree.exists_lexemes_eq with
    ⟨word, place, header, equal, expression, notImport, plain, same⟩
  have continues := (isExpression_iff.1 expression.isExpression).2.1
  rw [same]
  refine Scope.keeps_cons rests.constructs_eq ?_
  rw [rests.next_keyword notImport]
  refine plain.keeps.append ?_
  rw [plain.after_eq]
  refine Scope.keeps_cons rfl ((Scope.keeps_of_continues continues).append ?_)
  rw [Scope.after_expression]
  exact Rests.expression.keeps_optional _

/-- A whole member leads from between two members to between two members. -/
theorem rests_after (rests : Rests count scope) (tree : OwnMemberTree) :
    Rests count (scope.after tree.lexemes) := by
  rcases tree.exists_lexemes_eq with
    ⟨word, place, header, equal, expression, notImport, plain, same⟩
  rw [same, Scope.after_cons, rests.next_keyword notImport, Scope.after_append, plain.after_eq,
    Scope.after_cons, Scope.after_append]
  show Rests count ((Scope.mk count (some 0) |>.after expression.lexemes).after _)
  rw [Scope.after_expression]
  exact Rests.expression.after_optional _

end OwnMemberTree

/-- The head of a construct opens one construct. -/
theorem HeadTree.after_eq {count : Nat} {scope : Scope} (rests : Scope.Rests count scope)
    (tree : HeadTree) : scope.after tree.lexemes = ⟨count + 1, none⟩ := by
  have isWord : tree.kind.keyword ≠ .importWord := by cases tree.kind <;> nofun
  rw [lexemes, Scope.after_cons, rests.next_keyword isWord, Scope.after_cons,
    Plain.upper tree.name count, Scope.after_append, tree.typeParameters.plain.after_eq]
  rfl

mutual

/-- Outside of a construct it makes no difference. -/
theorem ConstructTree.rests_after :
    ∀ (tree : ConstructTree) {count : Nat} {scope : Scope}, Scope.Rests count scope →
      Scope.Rests count (scope.after tree.lexemes)
  | .mk head members, _, _, rests => by
      rw [ConstructTree.lexemes, Scope.after_append, head.after_eq rests, members.after_eq .outside]
      exact .outside

/-- The members of a construct end with the brace that closes it. -/
theorem MembersTree.after_eq :
    ∀ (tree : MembersTree) {count : Nat} {scope : Scope}, Scope.Rests (count + 1) scope →
      scope.after tree.lexemes = ⟨count, none⟩
  | .close right, _, _, rests => by
      rw [MembersTree.lexemes, Scope.after_cons, rests.next_rightBrace]
      rfl
  | .own member others, _, _, rests => by
      rw [MembersTree.lexemes, Scope.after_append, others.after_eq (member.rests_after rests)]
  | .nested construct others, _, _, rests => by
      rw [MembersTree.lexemes, Scope.after_append, others.after_eq (construct.rests_after rests)]

end

end TarnBuild
