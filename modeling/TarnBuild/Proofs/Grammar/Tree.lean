import Mathlib.Algebra.BigOperators.Group.List.Basic
import Mathlib.Algebra.Ring.Int.Defs
import TarnBuild.Parser.Construct

/-!
# Derivation trees

A tree records how the grammar derives a list of lexemes: it has one
constructor or one structure for each production, and a place for each lexeme
that the production writes.  From a tree one reads the lexemes that it
derives, the unit that it stands for, and the greatest number of constructs
and types that are open at once.

* unit: any number of imports, then a construct
* import: `import`, a name and an optional semicolon
* construct: `module` or `class`, a name, optional type parameters and
  members in braces
* member: a construct, or an optional `private` with a constant or a function
  and an optional semicolon
* constant: `val`, a name, optionally a colon and a type, an equal sign and an
  expression
* function: `function`, a name, optional type parameters, parameters in
  parentheses, a colon, a type, an equal sign and an expression

An expression is a run of lexemes, described by the balance of its delimiters.
-/

namespace TarnBuild

open Text (Span)

/-! ## Expressions -/

namespace Token

/-- One for an opening delimiter, minus one for a closing delimiter. -/
def nesting : Token → Int
  | mark .leftBrace | mark .leftParen | mark .leftBracket => 1
  | mark .rightBrace | mark .rightParen | mark .rightBracket => -1
  | _ => 0

/-- The semicolon, and the words that start a member. -/
def isBreak : Token → Bool
  | mark .semicolon => true
  | keyword word => word ≠ .importWord
  | _ => false

end Token

/-- The number of opening less the number of closing delimiters, of any kind. -/
def balance (lexemes : List Lexeme) : Int :=
  (lexemes.map fun lexeme => lexeme.token.nesting).sum

/-- A run of lexemes is an expression when it is not empty, closes no delimiter
that it has not opened, leaves none open, and has breaks only inside
delimiters. -/
structure IsExpression (lexemes : List Lexeme) : Prop where
  nonempty : lexemes ≠ []
  nonneg : ∀ front, front <+: lexemes → 0 ≤ balance front
  closed : balance lexemes = 0
  breaks : ∀ front lexeme back, lexemes = front ++ lexeme :: back →
    lexeme.token.isBreak → balance front ≠ 0

/-- An expression as it is written. -/
structure ExpressionTree where
  lexemes : List Lexeme
  isExpression : IsExpression lexemes

/-- The source from the first to the last lexeme of an expression, without the
blank characters at its two ends. -/
def ExpressionTree.text (source : List Char) (tree : ExpressionTree) : String :=
  let first := tree.lexemes.head tree.isExpression.nonempty
  let last := tree.lexemes.getLast tree.isExpression.nonempty
  String.ofList (Text.trimmed (Text.slice source ⟨first.span.start, last.span.stop⟩))

/-! ## Lists -/

/-- The greatest of some heights, or zero if there are none. -/
def greatest (heights : List Nat) : Nat :=
  heights.foldr max 0

@[simp]
theorem greatest_nil : greatest [] = 0 := rfl

@[simp]
theorem greatest_cons (height : Nat) (heights : List Nat) :
    greatest (height :: heights) = max height (greatest heights) := rfl

@[simp]
theorem greatest_replicate_zero (count : Nat) : greatest (List.replicate count 0) = 0 := by
  induction count with
  | zero => rfl
  | succ count ih => simp [List.replicate_succ, ih]

/-- One or more items with commas between them and a closing mark after them. -/
inductive CommaTree (Item : Type) where
  | last (item : Item) (close : Span)
  | more (item : Item) (comma : Span) (others : CommaTree Item)

namespace CommaTree

variable {Item : Type}

/-- The items, without their punctuation. -/
def items : CommaTree Item → List Item
  | last item _ => [item]
  | more item _ others => item :: others.items

/-- The lexemes that are read: each item as it is spelled, a comma after each
but the last, and the closing mark. -/
def lexemes (spell : Item → List Lexeme) (mark : Mark) : CommaTree Item → List Lexeme
  | last item close => spell item ++ [⟨.mark mark, close⟩]
  | more item comma others =>
      spell item ++ ⟨.mark .comma, comma⟩ :: others.lexemes spell mark

end CommaTree

/-- A closing parenthesis, or items with a closing parenthesis after them. -/
inductive ParenTree (Item : Type) where
  | empty (close : Span)
  | filled (items : CommaTree Item)

namespace ParenTree

variable {Item : Type}

/-- The items, none for a parenthesis that closes at once. -/
def items : ParenTree Item → List Item
  | empty _ => []
  | filled items => items.items

/-- The lexemes that are read after the opening parenthesis, the closing one
included. -/
def lexemes (spell : Item → List Lexeme) : ParenTree Item → List Lexeme
  | empty close => [⟨.mark .rightParen, close⟩]
  | filled items => items.lexemes spell .rightParen

end ParenTree

/-! ## Types -/

/-- A type as it is written. -/
inductive TypeTree where
  | primitive (type : Primitive) (place : Span)
  | bare (name : String) (place : Span)
  | applied (name : String) (place less : Span) (arguments : CommaTree TypeTree)
  | group (left : Span) (elements : ParenTree TypeTree)
  | function (left : Span) (parameters : ParenTree TypeTree) (arrow : Span)
      (result : TypeTree)

namespace TypeTree

mutual

/-- The lexemes that a written type is made of. -/
def lexemes : TypeTree → List Lexeme
  | primitive type place => [⟨.primitive type, place⟩]
  | bare name place => [⟨.upper name, place⟩]
  | applied name place less arguments =>
      ⟨.upper name, place⟩ :: ⟨.mark .less, less⟩ :: commaLexemes .greater arguments
  | group left elements => ⟨.mark .leftParen, left⟩ :: parenLexemes elements
  | function left parameters arrow result =>
      ⟨.mark .leftParen, left⟩ ::
        (parenLexemes parameters ++ ⟨.mark .arrow, arrow⟩ :: lexemes result)

/-- The lexemes of a list of types.  It stands here because a type is nested in
the list; `commaLexemes_eq` says that it is the general definition for lists. -/
def commaLexemes (mark : Mark) : CommaTree TypeTree → List Lexeme
  | .last item close => lexemes item ++ [⟨.mark mark, close⟩]
  | .more item comma others =>
      lexemes item ++ ⟨.mark .comma, comma⟩ :: commaLexemes mark others

/-- The lexemes of a list of types in parentheses, after the opening one. -/
def parenLexemes : ParenTree TypeTree → List Lexeme
  | .empty close => [⟨.mark .rightParen, close⟩]
  | .filled items => commaLexemes .rightParen items

end

mutual

/-- The type that a tree stands for.  Parentheses around nothing are the unit
type, around one type they only group it, and around more they make a tuple. -/
def type : TypeTree → TypeExpr
  | primitive type _ => .primitive type
  | bare name _ => .named name []
  | applied name _ _ arguments => .named name (commaTypes arguments)
  | group _ (.empty _) => .primitive .unit
  | group _ (.filled (.last item _)) => type item
  | group _ (.filled (.more item _ others)) => .tuple (type item :: commaTypes others)
  | function _ parameters _ result => .function (parenTypes parameters) (type result)

/-- The types that the items of a list stand for. -/
def commaTypes : CommaTree TypeTree → List TypeExpr
  | .last item _ => [type item]
  | .more item _ others => type item :: commaTypes others

/-- The types that the items in parentheses stand for. -/
def parenTypes : ParenTree TypeTree → List TypeExpr
  | .empty _ => []
  | .filled items => commaTypes items

end

mutual

/-- The greatest number of types that are open at once, parentheses included. -/
def height : TypeTree → Nat
  | primitive _ _ => 1
  | bare _ _ => 1
  | applied _ _ _ arguments => commaHeight arguments + 1
  | group _ elements => parenHeight elements + 1
  | function _ parameters _ result => max (parenHeight parameters) (height result) + 1

/-- The height of the highest type in a list. -/
def commaHeight : CommaTree TypeTree → Nat
  | .last item _ => height item
  | .more item _ others => max (height item) (commaHeight others)

/-- The height of the highest type in parentheses, and zero if there is none. -/
def parenHeight : ParenTree TypeTree → Nat
  | .empty _ => 0
  | .filled items => commaHeight items

end

/-- The lexemes of a list of types are those of a list whose items are spelled
as types. -/
@[simp]
theorem commaLexemes_eq (mark : Mark) (list : CommaTree TypeTree) :
    commaLexemes mark list = list.lexemes lexemes mark := by
  induction list with
  | last item close => simp [commaLexemes, CommaTree.lexemes]
  | more item comma others ih => simp [commaLexemes, CommaTree.lexemes, ih]

@[simp]
theorem parenLexemes_eq (list : ParenTree TypeTree) :
    parenLexemes list = list.lexemes lexemes := by
  cases list <;> simp [parenLexemes, ParenTree.lexemes]

@[simp]
theorem commaTypes_eq (list : CommaTree TypeTree) :
    commaTypes list = list.items.map type := by
  induction list with
  | last item close => simp [commaTypes, CommaTree.items]
  | more item comma others ih => simp [commaTypes, CommaTree.items, ih]

@[simp]
theorem parenTypes_eq (list : ParenTree TypeTree) :
    parenTypes list = list.items.map type := by
  cases list <;> simp [parenTypes, ParenTree.items]

/-- Parentheses stand for what the parser makes of the types that it read
between them. -/
theorem type_group (left : Span) (elements : ParenTree TypeTree) :
    type (group left elements) = TypeExpr.group (elements.items.map type) := by
  cases elements with
  | empty close => simp [type, ParenTree.items, TypeExpr.group]
  | filled items =>
      cases items with
      | last item close => simp [type, ParenTree.items, CommaTree.items, TypeExpr.group]
      | more item comma others =>
          cases others <;>
            simp [type, ParenTree.items, CommaTree.items, TypeExpr.group]

@[simp]
theorem commaHeight_eq (list : CommaTree TypeTree) :
    commaHeight list = greatest (list.items.map height) := by
  induction list with
  | last item close => simp [commaHeight, CommaTree.items]
  | more item comma others ih => simp [commaHeight, CommaTree.items, ih]

@[simp]
theorem parenHeight_eq (list : ParenTree TypeTree) :
    parenHeight list = greatest (list.items.map height) := by
  cases list <;> simp [parenHeight, ParenTree.items]

end TypeTree

/-! ## Constants and functions -/

/-- The name of a type parameter. -/
structure TypeParameterTree where
  name : String
  place : Span

/-- A type parameter is one capitalised name. -/
def TypeParameterTree.lexemes (tree : TypeParameterTree) : List Lexeme :=
  [⟨.upper tree.name, tree.place⟩]

/-- Nothing, or type parameters in angle brackets. -/
inductive TypeParametersTree where
  | absent
  | listed (less : Span) (names : CommaTree TypeParameterTree)

namespace TypeParametersTree

/-- The lexemes of the type parameters, none if there are no angle brackets. -/
def lexemes : TypeParametersTree → List Lexeme
  | absent => []
  | listed less names =>
      ⟨.mark .less, less⟩ :: names.lexemes TypeParameterTree.lexemes .greater

/-- The names of the type parameters, in their order. -/
def names : TypeParametersTree → List String
  | absent => []
  | listed _ names => names.items.map TypeParameterTree.name

end TypeParametersTree

/-- Nothing, or a colon and a type. -/
inductive AnnotationTree where
  | absent
  | given (colon : Span) (type : TypeTree)

namespace AnnotationTree

/-- The lexemes of an annotation, none if it is left out. -/
def lexemes : AnnotationTree → List Lexeme
  | absent => []
  | given colon type => ⟨.mark .colon, colon⟩ :: type.lexemes

/-- The type that an annotation gives. -/
def type? : AnnotationTree → Option TypeExpr
  | absent => none
  | given _ type => some type.type

/-- The height of the annotated type.  An annotation that is left out opens no
level. -/
def height : AnnotationTree → Nat
  | absent => 0
  | given _ type => type.height

end AnnotationTree

/-- A constant after its introducing word. -/
structure ConstantTree where
  name : String
  place : Span
  annotation : AnnotationTree
  equal : Span
  value : ExpressionTree

namespace ConstantTree

/-- The lexemes of a constant after the word that introduces it. -/
def lexemes (tree : ConstantTree) : List Lexeme :=
  ⟨.lower tree.name, tree.place⟩ ::
    (tree.annotation.lexemes ++ ⟨.mark .equal, tree.equal⟩ :: tree.value.lexemes)

/-- The constant that a tree stands for.  Its value is the text of the source
between the ends of the expression. -/
def constant (source : List Char) (visibility : Visibility) (tree : ConstantTree) :
    Constant where
  name := tree.name
  visibility := visibility
  annotation := tree.annotation.type?
  value := tree.value.text source

end ConstantTree

/-- A parameter of a function. -/
structure ParameterTree where
  name : String
  place : Span
  colon : Span
  type : TypeTree

namespace ParameterTree

/-- The lexemes of a parameter: its name, a colon and its type. -/
def lexemes (tree : ParameterTree) : List Lexeme :=
  ⟨.lower tree.name, tree.place⟩ :: ⟨.mark .colon, tree.colon⟩ :: tree.type.lexemes

/-- The parameter that a tree stands for. -/
def parameter (tree : ParameterTree) : Parameter where
  name := tree.name
  annotation := tree.type.type

/-- The height of the type of the parameter. -/
def height (tree : ParameterTree) : Nat :=
  tree.type.height

end ParameterTree

/-- A function after its introducing word. -/
structure FunctionTree where
  name : String
  place : Span
  typeParameters : TypeParametersTree
  left : Span
  parameters : ParenTree ParameterTree
  colon : Span
  result : TypeTree
  equal : Span
  body : ExpressionTree

namespace FunctionTree

/-- The lexemes of a function after the word that introduces it. -/
def lexemes (tree : FunctionTree) : List Lexeme :=
  ⟨.lower tree.name, tree.place⟩ ::
    (tree.typeParameters.lexemes ++ ⟨.mark .leftParen, tree.left⟩ ::
      (tree.parameters.lexemes ParameterTree.lexemes ++ ⟨.mark .colon, tree.colon⟩ ::
        (tree.result.lexemes ++ ⟨.mark .equal, tree.equal⟩ :: tree.body.lexemes)))

/-- The function that a tree stands for.  Its body is the text of the source
between the ends of the expression. -/
def function (source : List Char) (visibility : Visibility) (tree : FunctionTree) :
    Function where
  name := tree.name
  visibility := visibility
  typeParameters := tree.typeParameters.names
  parameters := tree.parameters.items.map ParameterTree.parameter
  result := tree.result.type
  body := tree.body.text source

/-- The height of the highest type that the function writes, in a parameter or
as its result. -/
def height (tree : FunctionTree) : Nat :=
  max (greatest (tree.parameters.items.map ParameterTree.height)) tree.result.height

end FunctionTree

/-! ## Members and constructs -/

/-- A token that may be left out, at its place if it is there. -/
def optionalLexeme (token : Token) : Option Span → List Lexeme
  | none => []
  | some place => [⟨token, place⟩]

/-- What a member of a construct declares, if it is not a construct. -/
inductive DeclarationTree where
  | constant (word : Span) (tree : ConstantTree)
  | function (word : Span) (tree : FunctionTree)

namespace DeclarationTree

/-- The lexemes of a declaration, the word that introduces it first. -/
def lexemes : DeclarationTree → List Lexeme
  | constant word tree => ⟨.keyword .valWord, word⟩ :: tree.lexemes
  | function word tree => ⟨.keyword .functionWord, word⟩ :: tree.lexemes

/-- The member that a declaration stands for, once its visibility is known. -/
def member (source : List Char) (visibility : Visibility) : DeclarationTree → Member
  | constant _ tree => .constant (tree.constant source visibility)
  | function _ tree => .function (tree.function source visibility)

/-- The height of the highest type that the declaration writes. -/
def height : DeclarationTree → Nat
  | constant _ tree => tree.annotation.height
  | function _ tree => tree.height

end DeclarationTree

/-- The visibility of a member with or without the word `private`. -/
def visibilityOf (privateWord : Option Span) : Visibility :=
  if privateWord.isSome then .hidden else .visible

/-- A constant or a function as a member of a construct. -/
structure OwnMemberTree where
  privateWord : Option Span
  declaration : DeclarationTree
  semicolon : Option Span

namespace OwnMemberTree

/-- The lexemes of a member, with the word and the semicolon that may be left
out. -/
def lexemes (tree : OwnMemberTree) : List Lexeme :=
  optionalLexeme (.keyword .privateWord) tree.privateWord ++
    (tree.declaration.lexemes ++ optionalLexeme (.mark .semicolon) tree.semicolon)

/-- The member that a tree stands for.  The semicolon leaves no trace in it. -/
def member (source : List Char) (tree : OwnMemberTree) : Member :=
  tree.declaration.member source (visibilityOf tree.privateWord)

/-- The height of the highest type that the member writes. -/
def height (tree : OwnMemberTree) : Nat :=
  tree.declaration.height

end OwnMemberTree

/-- A construct up to its opening brace. -/
structure HeadTree where
  kind : ConstructKind
  word : Span
  name : String
  place : Span
  typeParameters : TypeParametersTree
  left : Span

/-- The keyword that introduces a kind of construct. -/
def ConstructKind.keyword : ConstructKind → Keyword
  | moduleKind => .moduleWord
  | classKind => .classWord

/-- The lexemes of a construct up to its opening brace. -/
def HeadTree.lexemes (tree : HeadTree) : List Lexeme :=
  ⟨.keyword tree.kind.keyword, tree.word⟩ :: ⟨.upper tree.name, tree.place⟩ ::
    (tree.typeParameters.lexemes ++ [⟨.mark .leftBrace, tree.left⟩])

mutual

/-- A construct as it is written. -/
inductive ConstructTree where
  | mk (head : HeadTree) (members : MembersTree)

/-- The members of a construct with the closing brace after them. -/
inductive MembersTree where
  | close (right : Span)
  | own (member : OwnMemberTree) (others : MembersTree)
  | nested (construct : ConstructTree) (others : MembersTree)

end

mutual

/-- The lexemes of a construct, its closing brace included. -/
def ConstructTree.lexemes : ConstructTree → List Lexeme
  | .mk head members => head.lexemes ++ members.lexemes

/-- The lexemes of the members, with the closing brace at the end. -/
def MembersTree.lexemes : MembersTree → List Lexeme
  | .close right => [⟨.mark .rightBrace, right⟩]
  | .own member others => member.lexemes ++ others.lexemes
  | .nested construct others => construct.lexemes ++ others.lexemes

end

/-- The constants among some members, in their order. -/
def MembersTree.constants (source : List Char) : MembersTree → List Constant
  | .close _ => []
  | .own ⟨word, .constant _ tree, _⟩ others =>
      tree.constant source (visibilityOf word) :: others.constants source
  | .own ⟨_, .function _ _, _⟩ others => others.constants source
  | .nested _ others => others.constants source

/-- The functions among some members, in their order. -/
def MembersTree.functions (source : List Char) : MembersTree → List Function
  | .close _ => []
  | .own ⟨_, .constant _ _, _⟩ others => others.functions source
  | .own ⟨word, .function _ tree, _⟩ others =>
      tree.function source (visibilityOf word) :: others.functions source
  | .nested _ others => others.functions source

mutual

/-- The construct that a tree stands for. -/
def ConstructTree.construct (source : List Char) : ConstructTree → Construct
  | .mk head members => {
      name := head.name
      kind := head.kind
      typeParameters := head.typeParameters.names
      constants := members.constants source
      functions := members.functions source
      nested := members.constructs source }

/-- The constructs among some members, in their order. -/
def MembersTree.constructs (source : List Char) : MembersTree → List Construct
  | .close _ => []
  | .own _ others => others.constructs source
  | .nested construct others => construct.construct source :: others.constructs source

end

/-- All members, in their order. -/
def MembersTree.members (source : List Char) : MembersTree → List Member
  | .close _ => []
  | .own member others => member.member source :: others.members source
  | .nested construct others =>
      .nested (construct.construct source) :: others.members source

/-- The three lists that a construct keeps are the members of each kind, in the
order in which they are written. -/
theorem MembersTree.filterMap_members (source : List Char) :
    ∀ tree : MembersTree,
      (tree.members source).filterMap Member.constant? = tree.constants source ∧
        (tree.members source).filterMap Member.function? = tree.functions source ∧
          (tree.members source).filterMap Member.nested? = tree.constructs source
  | .close _ => ⟨rfl, rfl, rfl⟩
  | .own ⟨_, .constant _ tree, _⟩ others => by
      rcases filterMap_members source others with ⟨constants, functions, constructs⟩
      exact ⟨congrArg (_ :: ·) constants, functions, constructs⟩
  | .own ⟨_, .function _ tree, _⟩ others => by
      rcases filterMap_members source others with ⟨constants, functions, constructs⟩
      exact ⟨constants, congrArg (_ :: ·) functions, constructs⟩
  | .nested construct others => by
      rcases filterMap_members source others with ⟨constants, functions, constructs⟩
      exact ⟨constants, functions, congrArg (_ :: ·) constructs⟩

/-- A construct is what the parser makes of its head and its members. -/
theorem ConstructTree.construct_mk (source : List Char) (head : HeadTree)
    (members : MembersTree) :
    (ConstructTree.mk head members).construct source =
      Construct.ofMembers head.name head.kind head.typeParameters.names
        (members.members source) := by
  rcases members.filterMap_members source with ⟨constants, functions, constructs⟩
  rw [ConstructTree.construct, Construct.ofMembers, constants, functions, constructs]

mutual

/-- The greatest number of constructs and types that are open at once. -/
def ConstructTree.height : ConstructTree → Nat
  | .mk _ members => members.height + 1

/-- The height of the highest member.  Members that are no constructs open a
level only with their types. -/
def MembersTree.height : MembersTree → Nat
  | .close _ => 0
  | .own member others => max member.height others.height
  | .nested construct others => max construct.height others.height

end

/-! ## Units -/

/-- One import. -/
structure ImportTree where
  word : Span
  name : String
  place : Span
  semicolon : Option Span

/-- The lexemes of an import. -/
def ImportTree.lexemes (tree : ImportTree) : List Lexeme :=
  ⟨.keyword .importWord, tree.word⟩ :: ⟨.upper tree.name, tree.place⟩ ::
    optionalLexeme (.mark .semicolon) tree.semicolon

/-- A whole source. -/
structure UnitTree where
  imports : List ImportTree
  body : ConstructTree

namespace UnitTree

/-- The lexemes of a whole source: the imports first, the construct after them. -/
def lexemes (tree : UnitTree) : List Lexeme :=
  tree.imports.flatMap ImportTree.lexemes ++ tree.body.lexemes

/-- The unit that a tree stands for: the set of its imports, and its construct
with every member in its order. -/
def unit (source : List Char) (tree : UnitTree) : CompilationUnit where
  imports := NameSet.ofList (tree.imports.map ImportTree.name)
  body := tree.body.construct source

/-- The height of the construct.  Imports open no level. -/
def height (tree : UnitTree) : Nat :=
  tree.body.height

end UnitTree

end TarnBuild
