import TreeQuery.Proofs.TreeView.Alike
import TreeQuery.Proofs.Walk.Carried
/-!
# Trees with nodes left out

A tree is abridged when another one keeps some of its nodes and leaves out the others, which have
nothing below them (`Abridges`). The other tree shows the same of the nodes that it keeps, and what
it lists is what the whole tree lists, less the nodes left out. Elder siblings that are left out are
no content. So every question about a node that is kept has the same answer in both trees, but for
the one about content after the node, which has to be answered alike on its own
(`Abridges.predicatesAccept_eq`).
-/
namespace TreeQuery

namespace Walk

variable {ν : Type} {children others : ν → List ν} {kept : ν → Bool}

/-- Where nodes without children are left out of child lists, they are left out of what stands in
document order. -/
theorem DocumentOrder.filter
    (shortened : ∀ node, kept node → others node = (children node).filter kept)
    (bare : ∀ node, ¬kept node → children node = []) {nodes order : List ν}
    (ordered : DocumentOrder children nodes order) :
    DocumentOrder others (nodes.filter kept) (order.filter kept) := by
  induction ordered with
  | nil => exact .nil
  | @cons first rest inner later inside _ ihInside ihAfter =>
    by_cases holds : kept first
    · rw [List.filter_cons_of_pos holds, List.filter_cons_of_pos holds, List.filter_append]
      rw [← shortened first holds] at ihInside
      exact .cons ihInside ihAfter
    · rw [bare first holds] at inside
      cases inside
      rw [List.filter_cons_of_neg holds, List.filter_cons_of_neg holds, List.nil_append]
      exact ihAfter

end Walk

namespace TreeView

variable {ν : Type}

/-- A tree keeps some nodes of another and leaves out the others. -/
structure Abridges (other view : TreeView ν) (kept : ν → Bool) : Prop where
  /-- Every node kept shows the same. -/
  alike : ∀ node, kept node → view.Alike node other node
  /-- The parent of a node kept is kept and stays its parent. -/
  parent : Walk.Carries {node | kept node} id view.parent other.parent
  /-- The children of a node kept are those that are kept. -/
  children : ∀ node, kept node → other.children node = (view.children node).filter kept
  /-- A node left out has no children. -/
  bare : ∀ node, ¬kept node → view.children node = []
  /-- The siblings before a node kept are those that are kept. -/
  preceding : ∀ node, kept node → other.preceding node = (view.preceding node).filter kept
  /-- A sibling left out before a node kept is no content. -/
  passed : ∀ node, kept node → ∀ met ∈ view.preceding node, ¬kept met → view.isInsignificant met

namespace Abridges

variable {other view : TreeView ν} {kept : ν → Bool} (abridges : other.Abridges view kept)

include abridges

/-- There is content among some nodes where there is among those of them that are kept, if no node
left out is content. -/
theorem all_isInsignificant {nodes : List ν}
    (passed : ∀ met ∈ nodes, ¬kept met → view.isInsignificant met) :
    (nodes.filter kept).all other.isInsignificant = nodes.all view.isInsignificant := by
  rw [Bool.eq_iff_iff, List.all_eq_true, List.all_eq_true]
  constructor
  · intro none met listed
    by_cases known : kept met
    · rw [← (abridges.alike _ known).isInsignificant_eq]
      exact none met (List.mem_filter.mpr ⟨listed, known⟩)
    · exact passed met listed known
  · intro none met listed
    obtain ⟨listed, known⟩ := List.mem_filter.mp listed
    rw [(abridges.alike _ known).isInsignificant_eq]
    exact none met listed

variable {node : ν} (known : kept node)

include known

/-- No content stands before a node kept in both trees or in none. -/
theorem isFirst_eq : other.isFirst node = view.isFirst node := by
  rw [isFirst, abridges.preceding node known]
  exact abridges.all_isInsignificant (abridges.passed node known)

/-- A node kept has the same number among its siblings. -/
theorem position_eq : other.position node = view.position node := by
  have before : ((view.preceding node).filter kept).countP other.isSignificant =
      (view.preceding node).countP view.isSignificant := by
    rw [List.countP_filter]
    refine List.countP_congr fun met listed => ?_
    by_cases metKnown : kept met
    · simp only [isSignificant, (abridges.alike met metKnown).isInsignificant_eq, metKnown,
        Bool.and_true]
    · have blank := abridges.passed node known met listed metKnown
      simp [isSignificant, blank, metKnown]
  rw [position, abridges.preceding node known, before, position, isSignificant, isSignificant,
    (abridges.alike _ known).isInsignificant_eq]

/-- The predicates of a compound selector ask the same of a node kept, if what the one about
content after it asks is answered alike. -/
theorem predicatesAccept_eq {compound : Compound}
    (last : .pseudoClass .lastChild ∈ compound.predicates →
      other.isLast node = view.isLast node) :
    compound.predicatesAccept other node = compound.predicatesAccept view node :=
  (abridges.alike node known).predicatesAccept_eq (abridges.isFirst_eq known)
    (abridges.position_eq known) last

/-- The nodes below a node kept are those that are kept, in the same order. -/
theorem descendants_eq (noCircles : view.NoCircles) (noCirclesOther : other.NoCircles) :
    other.descendants node = (view.descendants node).filter kept := by
  have ordered :=
    (documentOrder_descendants noCircles node).filter abridges.children abridges.bare
  rw [← abridges.children node known] at ordered
  exact (documentOrder_descendants noCirclesOther node).unique ordered

end Abridges

end TreeView

end TreeQuery
