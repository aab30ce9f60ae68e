import TarnBuild.Proofs.Grammar.Complete
import TarnBuild.Proofs.Grammar.Sound
import TarnBuild.Proofs.Grammar.Unique

/-!
# Parsing is deriving

A source is read as a unit exactly when the grammar derives its lexemes with
this unit and the nesting limit is kept.  Since no lexemes have two derivation
trees, the unit holds what the source declares, each declaration once and in
its place.
-/

namespace TarnBuild

/-- A whole source is read as a unit exactly if it has a tree with that unit,
for which there is room. -/
theorem Parser.unit_eq_done_iff
    {context : ParseContext} {lexemes : List Lexeme} {depth : Nat}
    {unit : CompilationUnit} :
    (∃ after, Parser.unit context ⟨lexemes, depth⟩ = .done unit after) ↔
      ∃ tree : UnitTree, tree.lexemes = lexemes ∧ context.HasRoom depth tree.height ∧
        tree.unit context.source = unit := by
  constructor
  · rintro ⟨after, ends⟩
    rcases exists_tree_of_unit ends with ⟨tree, isUnit, spelled, hasRoom⟩
    exact ⟨tree, spelled, hasRoom, isUnit⟩
  · rintro ⟨tree, rfl, hasRoom, rfl⟩
    exact ⟨_, unit_run tree hasRoom⟩

theorem Outcome.result_eq_ok_iff {Value : Type} {outcome : Outcome Value} {value : Value} :
    outcome.result = .ok value ↔ ∃ after, outcome = .done value after := by
  cases outcome with
  | done found after => simp [result]
  | failed error after => simp [result]

/-- With any nesting limit, or none, a source is read as the units that its
lexemes derive within this limit. -/
theorem parseWithin_eq_ok_iff
    {limit : Option Nat} {source : List Char} {unit : CompilationUnit} :
    parseWithin limit source = .ok unit ↔
      ∃ tree : UnitTree, lex source = .ok tree.lexemes ∧
        (∀ most ∈ limit, tree.height ≤ most) ∧ tree.unit source = unit := by
  unfold parseWithin
  cases lexed : lex source with
  | error error =>
      constructor
      · nofun
      · nofun
  | ok lexemes =>
      show (Parser.unit ⟨source, limit⟩ ⟨lexemes, 0⟩).result = .ok unit ↔ _
      rw [Outcome.result_eq_ok_iff, Parser.unit_eq_done_iff]
      constructor
      · rintro ⟨tree, rfl, hasRoom, isUnit⟩
        exact ⟨tree, rfl, hasRoom, isUnit⟩
      · rintro ⟨tree, spelled, fits, isUnit⟩
        exact ⟨tree, (Except.ok.inj spelled).symm, fits, isUnit⟩

-- Words that start a member end an expression only outside its delimiters.
example :
    (parse "module A { val x = f(val y) val z = 1; }".toList).toOption.map
        (fun unit => unit.body.constants.map Constant.value) =
      some ["f(val y)", "1"] := by
  decide +kernel

end TarnBuild
