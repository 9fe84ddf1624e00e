import TreeQuery.Selector.Compound
/-!
# Nodes that show the same

Two nodes, of one tree or of two, are alike when they are of one kind and show the same tag,
attributes and text (`Alike`). What is asked of a node alone has the same answer for both: filters,
attribute tests, and whether they are content. A compound selector asks the same of both when they
also stand at the same place among their siblings (`Alike.predicatesAccept_eq`).
-/
namespace TreeQuery.TreeView

variable {ν μ : Type}

/-- Two nodes show the same. -/
structure Alike (view : TreeView ν) (node : ν) (other : TreeView μ) (place : μ) : Prop where
  /-- They are of one kind. -/
  kind : other.kind place = view.kind node
  /-- They have the same tag. -/
  tagName : other.tagName place = view.tagName node
  /-- They have the same attributes. -/
  attributeOf : other.attributeOf place = view.attributeOf node
  /-- They have the same data if they are texts. -/
  text : view.kind node = .text → other.text place = view.text node

namespace Alike

variable {view : TreeView ν} {node : ν} {other : TreeView μ} {place : μ}
  (alike : view.Alike node other place)

include alike

/-- A filter asks the same of both. -/
theorem filter_accepts (filter : Filter) :
    filter.accepts other place = filter.accepts view node := by
  simp only [Filter.accepts, attributeWords, alike.kind, alike.tagName, alike.attributeOf]

/-- An attribute test asks the same of both. -/
theorem attributeTest_accepts (test : AttributeTest) :
    test.accepts other place = test.accepts view node := by
  simp only [AttributeTest.accepts, alike.attributeOf]

/-- Both are content or none is. -/
theorem isInsignificant_eq : other.isInsignificant place = view.isInsignificant node := by
  unfold isInsignificant
  rw [alike.kind]
  cases kind : view.kind node with
  | text => rw [alike.text kind]
  | document => rfl
  | element => rfl
  | comment => rfl

/-- The predicates of a compound selector ask the same of both when both stand at the same place
among their siblings. The content after them counts only where a predicate asks for it. -/
theorem predicatesAccept_eq {compound : Compound} (first : other.isFirst place = view.isFirst node)
    (position : other.position place = view.position node)
    (last : .pseudoClass .lastChild ∈ compound.predicates →
      other.isLast place = view.isLast node) :
    compound.predicatesAccept other place = compound.predicatesAccept view node := by
  rw [Compound.predicatesAccept, Compound.predicatesAccept, Bool.eq_iff_iff, List.all_eq_true,
    List.all_eq_true]
  refine forall₂_congr fun predicate listed => ?_
  have same : predicate.accepts other place = predicate.accepts view node := by
    cases predicate with
    | attributeTest test => exact alike.attributeTest_accepts test
    | pseudoClass value =>
      cases value with
      | firstChild => exact first
      | lastChild => exact last listed
      | nthChild nth => exact congrArg nth.picks position
      | unknown clause => rfl
  rw [same]

end Alike

end TreeQuery.TreeView
