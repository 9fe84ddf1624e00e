import TreeQuery.Proofs.Select.Abridged
import TreeQuery.Proofs.Select.Independence
import TreeQuery.Proofs.Tree.Condensed
/-!
# Selecting without what is no content

A selector that asks for no siblings just before others selects the same in the condensed tree of a
forest (`Forest.select_condensed`), and the condensed tree is embedded in the tree of what is left
of the document without comments and blank texts. So they cannot be told from selecting: the two
documents have the same elements in the same order, and the same ones are selected
(`select_condensed_eq_map_place`).
-/
namespace TreeQuery

/-- The elements of a tree, in document order. -/
def TreeView.elements {ν : Type} (view : TreeView ν) : List ν :=
  (view.descendants view.root).filter fun node => view.kind node == .element

/-- What is selected below the root are elements. -/
theorem Host.matched_subset_elements {ν : Type} [DecidableEq ν] (host : Host ν) (query : Query) :
    host.matched host.root query ⊆ host.elements := by
  intro node listed
  rw [matched_eq_filter, List.mem_filter, List.mem_eraseDups] at listed
  obtain ⟨below, accepted⟩ := listed
  simp only [Query.accepts, Compound.accepts, Filter.accepts, Bool.and_eq_true] at accepted
  exact List.mem_filter.mpr ⟨below, accepted.1.1.1.1.1⟩

/-- What a selector selects are elements. -/
theorem Host.selected_subset_elements {ν : Type} [DecidableEq ν] (host : Host ν) {selector : String}
    {selected : List ν} (found : (host.select selector).outcome = .ok selected) :
    selected ⊆ host.elements := by
  rw [select, outcome_selectBelow] at found
  cases read : (Query.parse selector).outcome with
  | error error =>
    rw [read] at found
    cases found
  | ok query =>
    rw [read] at found
    cases found
    exact host.matched_subset_elements query

/-- An element is content. -/
theorem TreeView.isSignificant_of_element {ν : Type} {view : TreeView ν} {node : ν}
    (element : view.kind node = .element) : view.isSignificant node := by
  rw [isSignificant, isInsignificant, element]
  rfl

namespace Tree

/-- An element exists. -/
theorem lt_size_of_element {tree : Tree} {id : NodeId} (element : tree.view.kind id = .element) :
    id < tree.size := by
  refine get?_ne_none_iff.mp fun missing => ?_
  simp [view, content, missing] at element

namespace Forest

variable {tree : Tree} (forest : tree.Forest)
  (bare : ∀ id, ¬tree.view.isSignificant id → tree.children id = [])

include forest bare

/-- A query without adjacent steps selects the same in the condensed tree of a forest. -/
theorem matched_condensed {query : Query}
    (noAdjacent : ∀ step ∈ query.steps, step.relation ≠ .adjacent) :
    tree.view.condensed.host.matched root query = tree.host.matched root query := by
  have abridges : tree.view.condensed.host.Abridges tree.host.toTreeView tree.view.isSignificant :=
    forest.abridges_condensed bare
  have unaffected : tree.view.condensed.host.Unaffected tree.host.toTreeView
      tree.view.isSignificant query :=
    ⟨fun _ _ _ _ content => forest.isLast_condensed bare content,
      fun step listed adjacent => absurd adjacent (noAdjacent step listed)⟩
  rw [Host.matched_eq_filter_kept abridges forest.noCircles forest.noCircles_condensed unaffected
    (isSignificant_eq forest.rootContent)]
  refine List.filter_eq_self.mpr fun id selected => ?_
  have listed := tree.host.matched_subset_elements query selected
  exact TreeView.isSignificant_of_element (beq_iff_eq.mp (List.mem_filter.mp listed).2)

/-- A selector without adjacent combinators selects the same in the condensed tree of a forest. -/
theorem select_condensed {selector : String}
    (noAdjacent : .ok (.combinator .adjacent) ∉ (Cursor.ofSelector selector).segments) :
    tree.view.condensed.host.select selector = tree.host.select selector := by
  rw [Host.select, Host.select, Host.selectBelow_eq, Host.selectBelow_eq]
  refine Diagnosed.bind_congr_of_ok fun query read => congrArg pure ?_
  refine forest.matched_condensed bare fun step listed adjacent => ?_
  obtain ⟨combinator, _, written, _, writes⟩ := Query.exists_segments_of_mem_steps read listed
  have relation := writes.relation
  rw [adjacent] at relation
  cases combinator <;> cases relation
  exact noAdjacent written

end Forest

/-- The elements of the tree that holds what counts are the places of the elements. -/
theorem Condenses.elements_eq {slim tree : Tree} (condenses : slim.Condenses tree)
    (slimForest : slim.Forest) : slim.view.elements = tree.view.elements.map tree.rank := by
  have forest := condenses.forest
  have noCircles := forest.noCircles_condensed
  have left : tree.view.condensed.descendants root =
      (tree.view.descendants root).filter tree.view.isSignificant :=
    (forest.abridges_condensed condenses.bare).descendants_eq
      (isSignificant_eq forest.rootContent) forest.noCircles noCircles
  have placed : slim.view.descendants root =
      (tree.view.condensed.descendants root).map tree.rank :=
    condenses.outline.descendants_eq condenses.outline.root_mem noCircles slimForest.noCircles
  have kind : ∀ id ∈ tree.view.condensed.descendants root,
      slim.view.kind (tree.rank id) = tree.view.kind id := fun id listed =>
    condenses.outline.kind id
      (condenses.outline.mem_of_mem_descendants condenses.outline.root_mem noCircles id listed)
  calc slim.view.elements
    _ = ((tree.view.condensed.descendants root).map tree.rank).filter
          fun id => slim.view.kind id == .element := congrArg (List.filter _) placed
    _ = ((tree.view.condensed.descendants root).filter
          fun id => tree.view.kind id == .element).map tree.rank := by
      rw [List.filter_map]
      refine congrArg (List.map _) (List.filter_congr fun id listed => ?_)
      rw [Function.comp_apply, kind id listed]
    _ = tree.view.elements.map tree.rank := by
      rw [left, List.filter_filter]
      refine congrArg (List.map _) (List.filter_congr fun id _ => ?_)
      by_cases element : tree.view.kind id = .element
      · rw [TreeView.isSignificant_of_element element, Bool.and_true]
      · rw [beq_eq_false_iff_ne.mpr element, Bool.false_and]

end Tree

/-- A document without a root below its top and what is left of it without comments and blank texts
have the same elements in the same order, and a selector without adjacent combinators selects the
same ones of both, in the same order, or fails with the same error. -/
theorem select_condensed_eq_map_place (children : List Document)
    (noRoot : Document.areParts children) :
    ∃ (tree slim : Tree) (place : NodeId → NodeId),
      Tree.ofDocument (.document children) = .ok tree ∧
      Tree.ofDocument (Document.document children).condensed = .ok slim ∧
      slim.view.elements = tree.view.elements.map place ∧
      Set.InjOn place {id | id ∈ tree.view.elements} ∧
      (∀ id ∈ tree.view.elements, slim.content (place id) = tree.content id) ∧
      ∀ selector, .ok (.combinator .adjacent) ∉ (Cursor.ofSelector selector).segments →
        (∀ selected, (tree.host.select selector).outcome = .ok selected →
          selected ⊆ tree.view.elements) ∧
        slim.host.select selector = (do
          let selected ← tree.host.select selector
          pure (selected.map place)) := by
  obtain ⟨tree, slim, loaded, loadedSlim, condenses⟩ := Tree.exists_condensed children noRoot
  have forest := condenses.forest
  have slimForest := (Tree.grown_of_ofDocument loadedSlim).forest_of_builds
  have known : ∀ id ∈ tree.view.elements, id < tree.size ∧ tree.view.isSignificant id := by
    intro id listed
    have element := beq_iff_eq.mp (List.mem_filter.mp listed).2
    exact ⟨Tree.lt_size_of_element element, TreeView.isSignificant_of_element element⟩
  refine ⟨tree, slim, tree.rank, loaded, loadedSlim, condenses.elements_eq slimForest,
    condenses.outline.injective.mono known, fun id listed =>
      condenses.content id (known id listed).1 (known id listed).2, fun selector noAdjacent =>
      ⟨fun selected => tree.host.selected_subset_elements, ?_⟩⟩
  let embedding : tree.view.condensed.host.Embedding slim.host.toTreeView :=
    condenses.outline.embedding tree.view.siblingsListed_condensed slimForest.siblingsListed_view
  rw [← forest.select_condensed condenses.bare noAdjacent]
  exact Host.select_of_embedding _ slim.host embedding forest.noCircles_condensed
    slimForest.noCircles selector

/-- A list with two items, comments and blank texts. -/
def listWithBlanks : List Document :=
  [.comment "top", .element "ul" .empty [.text " ", .element "li" .empty [.text "one"],
    .comment "between", .element "li" .empty [.text "\n"]], .text "\t"]

/-- The second item is selected with the comments and blank texts around it, and without them. -/
theorem select_condensed_eq_map_place_listWithBlanks :
    Document.areParts listWithBlanks ∧
    .ok (.combinator .adjacent) ∉
      (Cursor.ofSelector "ul > li:nth-child(2):last-child").segments ∧
    ∃ (tree slim : Tree) (place : NodeId → NodeId),
      Tree.ofDocument (.document listWithBlanks) = .ok tree ∧
      Tree.ofDocument (Document.document listWithBlanks).condensed = .ok slim ∧
      tree.view.elements = [2, 4, 7] ∧ slim.view.elements = [1, 2, 4] ∧
      slim.view.elements = tree.view.elements.map place ∧
      (tree.host.select "ul > li:nth-child(2):last-child").outcome = .ok [7] ∧
      slim.host.select "ul > li:nth-child(2):last-child" = (do
        let selected ← tree.host.select "ul > li:nth-child(2):last-child"
        pure (selected.map place)) := by
  have segments : (Cursor.ofSelector "ul > li:nth-child(2):last-child").segments =
      [.ok (.token "li:nth-child(2):last-child".toList), .ok (.combinator .child),
        .ok (.token "ul".toList)] := by decide +kernel
  have noAdjacent : .ok (.combinator .adjacent) ∉
      (Cursor.ofSelector "ul > li:nth-child(2):last-child").segments := by
    rw [segments]
    simp
  have noRoot : Document.areParts listWithBlanks := by decide
  have shown : (Tree.ofDocument (.document listWithBlanks)).map (fun tree =>
      (tree.view.elements, (tree.host.select "ul > li:nth-child(2):last-child").outcome)) =
        .ok ([2, 4, 7], .ok [7]) := by decide +kernel
  have left : (Tree.ofDocument (Document.document listWithBlanks).condensed).map
      (fun slim => slim.view.elements) = .ok [1, 2, 4] := by decide +kernel
  obtain ⟨tree, slim, place, loaded, loadedSlim, elements, -, -, selects⟩ :=
    select_condensed_eq_map_place listWithBlanks noRoot
  simp only [loaded, Except.map, Except.ok.injEq, Prod.mk.injEq] at shown
  simp only [loadedSlim, Except.map, Except.ok.injEq] at left
  exact ⟨noRoot, noAdjacent, tree, slim, place, loaded, loadedSlim, shown.1, left, elements,
    shown.2, (selects _ noAdjacent).2⟩

end TreeQuery
