import TreeQuery.Proofs.Tree.Walks
import TreeQuery.Proofs.TreeView.Siblings
import TreeQuery.Proofs.Walk.Stack
/-!
# Walks that agree

The walks down, up and sideways in a tree follow links of three kinds, which are kept apart from
each other. In a forest they describe one and the same tree (`WalksAgree`): what is listed below a
node are the nodes with that ancestor, each once, ancestors before what is below them and elder
siblings, with all that is below them, before younger ones; the siblings before and after a node are
the parts of a child list before and after it; and the ancestors of a node end in the root where the
node is below the root. So it is in every tree grown by edits that fit (`walksAgree_of_grown`).
-/
namespace TreeQuery.Tree

/-- The walks of a tree follow their links to the end, and describe the same tree. -/
structure WalksAgree (tree : Tree) : Prop where
  /-- The ancestors are met by following parents until there is none. -/
  ancestors : ∀ id, Walk.Meets tree.parent id (tree.ancestors id)
  /-- The siblings before a node are met by going back until there is none. -/
  preceding : ∀ id, Walk.Meets tree.previous id (tree.preceding id)
  /-- The siblings after a node are met by going on until there is none. -/
  following : ∀ id, Walk.Meets tree.next id (tree.following id)
  /-- What is below a node is listed by a traversal with a stack, until that is empty. -/
  descendants : ∀ id, Walk.Lists tree.children (tree.children id).reverse (tree.descendants id)
  /-- No node is listed twice below another. -/
  distinct : ∀ top, (tree.descendants top).Nodup
  /-- Below a node is listed what has it among its ancestors. -/
  mem_descendants : ∀ top id, id ∈ tree.descendants top ↔ tree.isDescendant id top
  /-- A node is listed before what is below it. -/
  upperBefore : ∀ {top upper lower}, upper ∈ tree.descendants top →
    tree.isDescendant lower upper → [upper, lower].Sublist (tree.descendants top)
  /-- A node and all that is below it are listed before a younger sibling and what is below that. -/
  elderBefore : ∀ {top parent before elder between younger after},
    tree.children parent = before ++ elder :: (between ++ younger :: after) →
    elder ∈ tree.descendants top →
    ∀ former ∈ elder :: tree.descendants elder, ∀ latter ∈ younger :: tree.descendants younger,
      [former, latter].Sublist (tree.descendants top)
  /-- The siblings of a node are the parts of the child list of its parent before it, from the last
  to the first, and after it. -/
  siblings : ∀ {id parent}, tree.parent id = some parent → ∃ before after,
    tree.children parent = before ++ id :: after ∧ tree.preceding id = before.reverse ∧
      tree.following id = after
  /-- A node without a parent has no siblings. -/
  alone : ∀ {id}, tree.parent id = none → tree.preceding id = [] ∧ tree.following id = []
  /-- The ancestors of a node end in the root when it is listed below the root. -/
  rooted : ∀ id, (tree.ancestors id).getLast? = some root ↔ id ∈ tree.descendants root

namespace Forest

variable {tree : Tree} (forest : tree.Forest)

include forest

/-- In a forest, what is listed below a node is what lies below it. -/
theorem mem_descendants_iff (top id : NodeId) :
    id ∈ tree.descendants top ↔ Relation.TransGen (Walk.Names tree.children) top id :=
  TreeView.mem_descendants_iff forest.noCircles top id

/-- A node and what is listed below it is what lies at or below it. -/
theorem mem_cons_descendants_iff (top id : NodeId) :
    id ∈ top :: tree.descendants top ↔
      Relation.ReflTransGen (Walk.Names tree.children) top id := by
  rw [List.mem_cons, forest.mem_descendants_iff, Relation.reflTransGen_iff_eq_or_transGen]

/-- In a forest, a node is listed before what is below it. -/
theorem upper_before {top upper lower : NodeId} (listed : upper ∈ tree.descendants top)
    (below : tree.isDescendant lower upper) : [upper, lower].Sublist (tree.descendants top) :=
  (forest.documentOrder_descendants top).upper_before (forest.documentOrder_descendants upper)
    listed ((forest.isDescendant_iff lower upper).mp below)

/-- In a forest, what is listed below a parent keeps its order in what is listed below a node that
one of its children is below. -/
theorem descendants_parent_sublist {top parent child : NodeId}
    (names : child ∈ tree.children parent) (listed : child ∈ tree.descendants top) :
    (tree.descendants parent).Sublist (tree.descendants top) := by
  have above :=
    forest.branching.above_parent names ((forest.mem_descendants_iff top child).mp listed)
  rw [← forest.filter_isDescendant ((forest.mem_cons_descendants_iff top parent).mpr above)]
  exact List.filter_sublist

/-- In a forest, a node and all that is below it are listed before a younger sibling and what is
below that. -/
theorem elder_before {top parent elder younger : NodeId} {before between after : List NodeId}
    (split : tree.children parent = before ++ elder :: (between ++ younger :: after))
    (listed : elder ∈ tree.descendants top) {former latter : NodeId}
    (inElder : former ∈ elder :: tree.descendants elder)
    (inYounger : latter ∈ younger :: tree.descendants younger) :
    [former, latter].Sublist (tree.descendants top) := by
  have ordered := forest.documentOrder_descendants parent
  rw [split, List.append_cons] at ordered
  have inParent : [former, latter].Sublist (tree.descendants parent) :=
    ordered.elder_before (by simp) ((forest.mem_cons_descendants_iff elder former).mp inElder)
      (by simp) ((forest.mem_cons_descendants_iff younger latter).mp inYounger)
  exact inParent.trans (forest.descendants_parent_sublist (by simp [split]) listed)

/-- In a forest, the siblings of a node are the parts of a child list before and after it. -/
theorem exists_siblings {id parent : NodeId} (leads : tree.parent id = some parent) :
    ∃ before after, tree.children parent = before ++ id :: after ∧
      tree.preceding id = before.reverse ∧ tree.following id = after := by
  obtain ⟨before, after, split⟩ := List.append_of_mem ((forest.listed parent id).mpr leads)
  have listed := forest.siblingsListed_view
  exact ⟨before, after, split, listed.preceding_eq forest.families forest.noCircles split,
    listed.following_eq forest.families forest.noCircles split⟩

/-- In a forest, the ancestors of a node end in the root when it is listed below the root. -/
theorem getLast?_ancestors_iff (id : NodeId) :
    (tree.ancestors id).getLast? = some root ↔ id ∈ tree.descendants root := by
  rw [forest.mem_descendants_iff, ← forest.isDescendant_iff, isDescendant, List.contains_iff_mem]
  constructor
  · exact List.mem_of_getLast?
  · intro listed
    exact (forest.meets_ancestors id).getLast?_eq_some listed forest.rootParent

/-- In a forest the walks agree. -/
theorem walksAgree : tree.WalksAgree where
  ancestors := forest.meets_ancestors
  preceding := forest.meets_preceding
  following := forest.meets_following
  descendants id := Walk.lists_of_documentOrder (forest.documentOrder_descendants id)
  distinct top := (List.nodup_cons.mp (forest.nodup_cons_descendants top)).2
  mem_descendants top id := by rw [forest.mem_descendants_iff, forest.isDescendant_iff]
  upperBefore := forest.upper_before
  elderBefore split listed _ inElder _ inYounger :=
    forest.elder_before split listed inElder inYounger
  siblings := forest.exists_siblings
  alone single :=
    ⟨forest.siblingsListed_view.preceding_of_alone forest.noCircles single,
      forest.siblingsListed_view.following_of_alone forest.noCircles single⟩
  rooted := forest.getLast?_ancestors_iff

end Forest

/-- In a tree grown by edits that fit the walks down, up and sideways agree. -/
theorem walksAgree_of_grown {tree : Tree} (grown : tree.Grown Edit.Fits) : tree.WalksAgree :=
  grown.forest.walksAgree

/-- The walks agree in a division and beside it, where a list with an item stands apart. -/
theorem walksAgree_of_grown_twoParts : twoParts.Grown Edit.Fits ∧
    twoParts.descendants root = [3] ∧ twoParts.descendants 1 = [2] ∧
    twoParts.ancestors 2 = [1] ∧ twoParts.WalksAgree := by
  have grown : twoParts.Grown Edit.Fits :=
    .edit (.edit (.edit .empty Edit.Fits.make) (.insert (by decide))) (.insert (by decide))
  have belowRoot := TreeView.descendants_eq_below twoParts.view root
  have belowList := TreeView.descendants_eq_below twoParts.view 1
  exact ⟨grown, belowRoot.trans (by decide), belowList.trans (by decide), by decide,
    walksAgree_of_grown grown⟩

end TreeQuery.Tree
