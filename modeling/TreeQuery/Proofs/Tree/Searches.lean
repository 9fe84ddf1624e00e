import TreeQuery.Proofs.Tree.Growth
import TreeQuery.Proofs.Walk.Stack
/-!
# Searches in a tree

A tree finds the nodes that pass a filter by a traversal whose list is filtered, and a host without
a search of its own by a search that filters on the way. On child lists without circles, be it that
they name a node several times, both come to an end and find the same: the nodes that pass, in
document order, once for each way down to them (`searches_eq_filter`).
-/
namespace TreeQuery.Tree

/-- Where child lists lead in no circle, there is a document order of what lies below a scope. A
traversal by a stack lists it, the tree finds the nodes of it that pass a filter, and so does a
search by a stack, and a host that filters on the way. -/
theorem searches_eq_filter {tree : Tree} (noCircle : Walk.NoCircle (Walk.Names tree.children))
    (scope : NodeId) (filter : Filter) :
    ∃ order, Walk.DocumentOrder tree.children (tree.children scope) order ∧
      Walk.Lists tree.children (tree.children scope).reverse order ∧
      tree.descendants scope = order ∧
      tree.host.search scope filter = order.filter (filter.accepts tree.view) ∧
      Walk.Search.Finds tree.children (filter.accepts tree.view)
        ⟨(tree.children scope).reverse, []⟩ (order.filter (filter.accepts tree.view)) ∧
      tree.view.host.search scope filter = order.filter (filter.accepts tree.view) := by
  have ordered : Walk.DocumentOrder tree.children (tree.children scope) (tree.descendants scope) :=
    TreeView.documentOrder_of_noCircle tree.view noCircle scope
  exact ⟨tree.descendants scope, ordered, Walk.lists_of_documentOrder ordered, rfl,
    tree.host.search_eq_filter scope filter, Walk.finds_of_documentOrder ordered [],
    tree.view.host.search_eq_filter scope filter⟩

/-- An unordered and an ordered list, with an item that was put into both. -/
def sharedItem : Tree :=
  (Edit.append 2 3).apply ((Edit.insert 1 (.element "li" .empty)).apply
    ((Edit.insert 0 (.element "ol" .empty)).apply
      ((Edit.insert 0 (.element "ul" .empty)).apply .empty)))

/-- A filter for items. -/
def items : Filter := { tag := .named "LI" }

/-- The shared item is found twice, once in each list. -/
theorem searches_eq_filter_sharedItem : Walk.NoCircle (Walk.Names sharedItem.children) ∧
    sharedItem.descendants root = [1, 3, 2, 3] ∧
    ∃ order, Walk.DocumentOrder sharedItem.children (sharedItem.children root) order ∧
      Walk.Lists sharedItem.children (sharedItem.children root).reverse order ∧
      sharedItem.descendants root = order ∧
      sharedItem.host.search root items = order.filter (items.accepts sharedItem.view) ∧
      Walk.Search.Finds sharedItem.children (items.accepts sharedItem.view)
        ⟨(sharedItem.children root).reverse, []⟩ (order.filter (items.accepts sharedItem.view)) ∧
      sharedItem.view.host.search root items =
        order.filter (items.accepts sharedItem.view) := by
  have forward : sharedItem.linksForward := by decide
  have noCircle : Walk.NoCircle (Walk.Names sharedItem.children) :=
    (noCircles_of_linksForward forward).children
  have below := TreeView.descendants_eq_below sharedItem.view root
  have listed : sharedItem.descendants root = [1, 3, 2, 3] := below.trans (by decide)
  exact ⟨noCircle, listed, searches_eq_filter noCircle root items⟩

end TreeQuery.Tree
