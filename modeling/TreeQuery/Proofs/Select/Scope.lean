import TreeQuery.Proofs.Select.Contexts
import TreeQuery.Proofs.Tree.Loading
/-!
# Scopes

Whether a query accepts a node does not depend on the scope. In a built tree what lies below a
scope is a stretch of what lies below the root, so a scope restricts: below it is selected what is
selected in the whole tree and is a descendant of the scope (`matched_eq_filter_isDescendant`).
-/
namespace TreeQuery.Tree

/-- A query selects below a scope what it selects in the whole tree and is a descendant of the
scope. -/
theorem matched_eq_filter_isDescendant {tree : Tree} (forest : tree.Forest) {scope : NodeId}
    (listed : scope ∈ root :: tree.descendants root) (query : Query) :
    tree.host.matched scope query =
      (tree.host.matched root query).filter (tree.isDescendant · scope) := by
  have below : tree.host.descendants scope =
      (tree.host.descendants root).filter (tree.isDescendant · scope) :=
    (forest.filter_isDescendant listed).symm
  rw [Host.matched_eq_filter, Host.matched_eq_filter, below, eraseDups_filter, List.filter_comm]

/-- Selecting below a node of a built tree is selecting in the whole tree and keeping the
descendants of the node, in the same order. It fails where selecting in the whole tree does, with
the same error. -/
theorem selectBelow_eq_filter {tree : Tree}
    (built : tree.Grown Edit.Builds ∨ ∃ document, ofDocument document = .ok tree)
    {scope : NodeId} (known : scope < tree.size) (selector : String) :
    tree.host.selectBelow scope selector = (do
      let selected ← tree.host.select selector
      pure (selected.filter (tree.isDescendant · scope))) := by
  have grown : tree.Grown Edit.Builds := by
    rcases built with grown | ⟨document, loaded⟩
    · exact grown
    · exact grown_of_ofDocument loaded
  have listed := grown.mem_root_descendants known
  rw [Host.select, Host.selectBelow_eq, Host.selectBelow_eq, bind_assoc]
  congr 1
  funext query
  rw [pure_bind, matched_eq_filter_isDescendant grown.forest_of_builds listed]
  rfl

/-- A division with a list of one item in it, and another item after the list. -/
def itemInList : Tree :=
  (Edit.insert 1 (.element "li" .empty)).apply ((Edit.insert 2 (.element "li" .empty)).apply
    ((Edit.insert 1 (.element "ul" .empty)).apply
      ((Edit.insert 0 (.element "div" .empty)).apply .empty)))

/-- Below the list is selected the item in it alone, for a division that is outside the list. -/
theorem selectBelow_eq_filter_itemInList :
    (itemInList.Grown Edit.Builds ∨ ∃ document, ofDocument document = .ok itemInList) ∧
    2 < itemInList.size ∧
    (itemInList.host.select "div li").outcome = .ok [3, 4] ∧
    itemInList.host.selectBelow 2 "div li" = (do
      let selected ← itemInList.host.select "div li"
      pure (selected.filter (itemInList.isDescendant · 2))) := by
  have built : itemInList.Grown Edit.Builds :=
    .edit (.edit (.edit (.edit .empty (.insert (by decide) nofun)) (.insert (by decide) nofun))
      (.insert (by decide) nofun)) (.insert (by decide) nofun)
  exact ⟨.inl built, by decide, by decide +kernel,
    selectBelow_eq_filter (.inl built) (by decide) "div li"⟩

end TreeQuery.Tree
