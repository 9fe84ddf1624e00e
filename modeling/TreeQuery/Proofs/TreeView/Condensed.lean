import TreeQuery.Proofs.TreeView.Abridged
import TreeQuery.Proofs.TreeView.Siblings
/-!
# Trees without what is no content

A tree is condensed when comments and blank texts are taken out of its child lists, and siblings are
read off the lists that are left (`TreeView.condensed`). The siblings of a node that is content are
then its siblings that are content (`Forest.preceding_condensed`, `Forest.following_condensed`). So
the condensed tree is the tree with what is no content left out, where that has no children
(`Forest.abridges_condensed`), and content is last in both or in none (`Forest.isLast_condensed`).
-/
namespace TreeQuery

namespace TreeView

variable {ν : Type}

/-- A tree with child lists that name some nodes alone. -/
def pruned (view : TreeView ν) (kept : ν → Bool) : TreeView ν where
  __ := view
  children node := (view.children node).filter kept
  bounded := by
    obtain ⟨nodes, fits, linked⟩ := view.bounded
    refine ⟨nodes, fits, fun node reaches => linked node ?_⟩
    rcases reaches with above | before | after | below
    · exact .inl above
    · exact .inr (.inl before)
    · exact .inr (.inr (.inl after))
    · refine .inr (.inr (.inr fun none => below ?_))
      rw [none, List.filter_nil]

variable [DecidableEq ν]

/-- A tree with nothing but content in its child lists, and siblings read off them. -/
def condensed (view : TreeView ν) : TreeView ν := (view.pruned view.isSignificant).relisted

variable {view : TreeView ν}

/-- The condensed tree reads siblings off its child lists. -/
theorem siblingsListed_condensed (view : TreeView ν) : view.condensed.SiblingsListed := ⟨rfl, rfl⟩

/-- Child lists that name fewer nodes name them once and below their parents, too. -/
theorem Families.condensed (families : view.Families) : view.condensed.Families where
  distinct node := (families.distinct node).filter _
  parent listed := families.parent (List.mem_filter.mp listed).1

/-- Content between other nodes of a child list is left between the content among them. -/
theorem children_condensed {parent node : ν} {before after : List ν}
    (content : view.isSignificant node) (split : view.children parent = before ++ node :: after) :
    view.condensed.children parent =
      before.filter view.isSignificant ++ node :: after.filter view.isSignificant := by
  change (view.children parent).filter view.isSignificant = _
  rw [split, List.filter_append, List.filter_cons_of_pos content]

/-- A node with a sibling in the condensed tree is content that stands in a child list. -/
theorem exists_split_of_sibling_condensed {shift : Nat → Option Nat} {node met : ν}
    (found : view.condensed.sibling shift node = some met) : view.isSignificant node ∧
      ∃ parent before after, view.children parent = before ++ node :: after := by
  simp only [sibling, Option.bind_eq_bind, Option.bind_eq_some_iff] at found
  obtain ⟨parent, _, position, placed, _⟩ := found
  have listed : node ∈ (view.children parent).filter view.isSignificant := by
    by_contra missing
    have unplaced := List.idxOf?_eq_none_iff.mpr missing
    exact Option.some_ne_none position (placed.symm.trans unplaced)
  obtain ⟨listed, content⟩ := List.mem_filter.mp listed
  exact ⟨content, parent, List.append_of_mem listed⟩

/-- Links of a condensed tree stand for ways along the links of the tree. -/
theorem NoCircles.condensed (noCircles : view.NoCircles) (families : view.Families)
    (listed : view.SiblingsListed) : view.condensed.NoCircles where
  parent := noCircles.parent
  previous := by
    refine noCircles.previous.of_transGen fun node met stands => ?_
    obtain ⟨content, parent, before, after, split⟩ := exists_split_of_sibling_condensed stands
    have last := families.condensed.sibling_before (children_condensed content split)
    have among := List.mem_of_getLast? (last.symm.trans stands)
    exact (listed.meets_before families split).transGen
      (List.mem_reverse.mpr (List.mem_filter.mp among).1)
  next := by
    refine noCircles.next.of_transGen fun node met stands => ?_
    obtain ⟨content, parent, before, after, split⟩ := exists_split_of_sibling_condensed stands
    have first := families.condensed.sibling_after (children_condensed content split)
    have among := List.mem_of_head? (first.symm.trans stands)
    exact (listed.meets_after families split).transGen (List.mem_filter.mp among).1
  children :=
    noCircles.children.of_transGen fun node met leads => .single (List.mem_filter.mp leads).1

end TreeView

namespace Tree.Forest

variable {tree : Tree} (forest : tree.Forest)

include forest

/-- No link of the condensed tree of a forest leads in a circle. -/
theorem noCircles_condensed : tree.view.condensed.NoCircles :=
  forest.noCircles.condensed forest.families forest.siblingsListed_view

section Content

variable {id : NodeId} (content : tree.view.isSignificant id)

include content

/-- The siblings before content are, in the condensed tree, those that are content. -/
theorem preceding_condensed : tree.view.condensed.preceding id =
    (tree.view.preceding id).filter tree.view.isSignificant := by
  have listed := tree.view.siblingsListed_condensed
  cases above : tree.view.parent id with
  | none =>
    rw [listed.preceding_of_alone forest.noCircles_condensed above,
      forest.siblingsListed_view.preceding_of_alone forest.noCircles above, List.filter_nil]
  | some parent =>
    obtain ⟨before, after, split⟩ := List.append_of_mem ((forest.listed parent id).mpr above)
    rw [listed.preceding_eq forest.families.condensed forest.noCircles_condensed
        (TreeView.children_condensed content split),
      forest.siblingsListed_view.preceding_eq forest.families forest.noCircles split,
      List.filter_reverse]

/-- The siblings after content are, in the condensed tree, those that are content. -/
theorem following_condensed : tree.view.condensed.following id =
    (tree.view.following id).filter tree.view.isSignificant := by
  have listed := tree.view.siblingsListed_condensed
  cases above : tree.view.parent id with
  | none =>
    rw [listed.following_of_alone forest.noCircles_condensed above,
      forest.siblingsListed_view.following_of_alone forest.noCircles above, List.filter_nil]
  | some parent =>
    obtain ⟨before, after, split⟩ := List.append_of_mem ((forest.listed parent id).mpr above)
    rw [listed.following_eq forest.families.condensed forest.noCircles_condensed
        (TreeView.children_condensed content split),
      forest.siblingsListed_view.following_eq forest.families forest.noCircles split]

end Content

variable (bare : ∀ id, ¬tree.view.isSignificant id → tree.children id = [])

include bare

/-- Where what is no content has no children, a parent is content. -/
theorem isSignificant_parent {id parent : NodeId} (leads : tree.parent id = some parent) :
    tree.view.isSignificant parent := by
  by_contra blank
  have listed := (forest.listed parent id).mpr leads
  rw [bare parent blank] at listed
  cases listed

/-- Where what is no content has no children, a condensed tree is the tree with that left out. -/
theorem abridges_condensed :
    tree.view.condensed.Abridges tree.view tree.view.isSignificant where
  alike id _ := ⟨rfl, rfl, rfl, fun text => if_pos text⟩
  parent := ⟨fun _ leads => forest.isSignificant_parent bare leads, fun _ =>
    Option.map_id_apply.symm⟩
  children _ _ := rfl
  bare := bare
  preceding _ content := forest.preceding_condensed content
  passed id _ met _ blank := by simpa [TreeView.isSignificant] using blank

/-- Content is last in the condensed tree where it is last in the tree. -/
theorem isLast_condensed {id : NodeId} (content : tree.view.isSignificant id) :
    tree.view.condensed.isLast id = tree.view.isLast id := by
  rw [TreeView.isLast, forest.following_condensed content]
  exact (forest.abridges_condensed bare).all_isInsignificant fun met _ blank => by
    simpa [TreeView.isSignificant] using blank

end Tree.Forest

end TreeQuery
