import TreeQuery.Proofs.Select.Carried
import TreeQuery.Proofs.Select.Scope
import TreeQuery.Proofs.TreeView.Siblings
/-!
# Selecting on other hosts

What a selector selects depends on what a tree shows of its nodes, and on nothing else: not on how
nodes are named, how a host searches, or how it comes to the siblings of a node. Where a tree is
embedded in another, every step leads between places as it leads between nodes
(`Embedding.follow`), and the nodes selected in the other tree are the places of the nodes selected
in the first, in the same order (`Host.select_of_embedding`). That holds of the tree of a document
and of any host of the same document that looks siblings up in child lists.
-/
namespace TreeQuery

namespace TreeView.Embedding

variable {ν μ : Type} [DecidableEq ν] [DecidableEq μ] {view : TreeView ν} {other : TreeView μ}
  (embedding : view.Embedding other) (noCircles : view.NoCircles)
  (noCirclesOther : other.NoCircles)

include noCircles noCirclesOther

/-- A step leads between places as it leads between nodes. -/
theorem follow (step : Step) :
    Walk.Carries embedding.nodes embedding.place (view.follow step) (other.follow step) :=
  .follow embedding.injective step
    (fun _ known => embedding.predicatesAccept_eq noCircles noCirclesOther known step.compound)
    embedding.parent (embedding.nearestAncestor noCircles noCirclesOther step.compound.filter)
    (fun _ => embedding.previous)
    (fun _ => embedding.nearestPreceding noCircles noCirclesOther step.compound.filter)

/-- Steps one after the other lead between places as they lead between nodes. -/
theorem followAll (steps : List Step) : Walk.Carries embedding.nodes embedding.place
    (view.followAll steps) (other.followAll steps) :=
  .followAll fun step _ => embedding.follow noCircles noCirclesOther step

/-- A query accepts a node where it accepts its place. -/
theorem query_accepts {node : ν} (known : node ∈ embedding.nodes) (query : Query) :
    query.accepts other (embedding.place node) = query.accepts view node := by
  rw [Query.accepts, Query.accepts,
    embedding.compound_accepts noCircles noCirclesOther known,
    (embedding.followAll noCircles noCirclesOther query.steps).same known, Option.isSome_map]

end TreeView.Embedding

namespace Host

variable {ν μ : Type} [DecidableEq ν] [DecidableEq μ] (host : Host ν) (other : Host μ)

/-- What a query selects below a place are the places of what it selects below the node. -/
theorem matched_eq_map_place (embedding : host.Embedding other.toTreeView)
    (noCircles : host.NoCircles) (noCirclesOther : other.NoCircles) {scope : ν}
    (known : scope ∈ embedding.nodes) (query : Query) :
    other.matched (embedding.place scope) query =
      (host.matched scope query).map embedding.place := by
  have allKnown := embedding.mem_of_mem_descendants known noCircles
  rw [matched_eq_filter, matched_eq_filter,
    embedding.descendants_eq known noCircles noCirclesOther,
    eraseDups_map embedding.injective _ allKnown, List.filter_map]
  refine congrArg (List.map embedding.place) (List.filter_congr fun node listed => ?_)
  exact embedding.query_accepts noCircles noCirclesOther
    (allKnown node (List.mem_eraseDups.mp listed)) query

/-- What a selector selects in the other tree are the places of what it selects in the first. -/
theorem select_of_embedding (embedding : host.Embedding other.toTreeView)
    (noCircles : host.NoCircles) (noCirclesOther : other.NoCircles) (selector : String) :
    other.select selector = (do
      let selected ← host.select selector
      pure (selected.map embedding.place)) := by
  rw [select, select, selectBelow_eq, selectBelow_eq, bind_assoc, ← embedding.root]
  congr 1
  funext query
  rw [pure_bind,
    host.matched_eq_map_place other embedding noCircles noCirclesOther embedding.root_mem]

end Host

namespace Tree.Forest

variable {tree : Tree} (forest : tree.Forest)

include forest

/-- A host with the outline of a forest that reads siblings off child lists selects the places of
what the forest selects. -/
theorem select_of_outline {μ : Type} [DecidableEq μ] {flat : Host μ}
    (outline : tree.view.Outline flat.toTreeView) (noCircles : flat.NoCircles)
    (listed : flat.SiblingsListed) (selector : String) :
    flat.select selector = (do
      let selected ← tree.host.select selector
      pure (selected.map outline.place)) :=
  tree.host.select_of_embedding flat (outline.embedding forest.siblingsListed_view listed)
    forest.noCircles noCircles selector

/-- Reading siblings off the child lists of a forest selects the same nodes. -/
theorem select_relisted (selector : String) :
    tree.view.relisted.host.select selector = tree.host.select selector := by
  have noCircles : tree.view.relisted.host.NoCircles :=
    forest.noCircles.relisted forest.siblingsListed_view
  have same : tree.view.relisted.host.select selector = (do
      let selected ← tree.host.select selector
      pure (selected.map id)) :=
    forest.select_of_outline tree.view.outlineRelisted noCircles ⟨rfl, rfl⟩ selector
  rw [same]
  simp only [List.map_id, bind_pure]

end Tree.Forest

/-- Selecting on a host gives the places of what is selected on any host that is embedded in it, in
the same order, or fails with the same error. A host that reads siblings off child lists gives what
the tree of the same document gives, under the same numbers or at the places that the nodes have
in it. -/
theorem select_eq_map_place :
    (∀ (ν μ : Type) [DecidableEq ν] [DecidableEq μ] (host : Host ν) (other : Host μ)
      (embedding : host.Embedding other.toTreeView), host.NoCircles → other.NoCircles →
      ∀ selector, other.select selector = (do
        let selected ← host.select selector
        pure (selected.map embedding.place))) ∧
    ∀ (document : Document) (tree : Tree), Tree.ofDocument document = .ok tree → ∀ selector,
      tree.view.relisted.host.select selector = tree.host.select selector ∧
      ∀ (μ : Type) [DecidableEq μ] (flat : Host μ) (outline : tree.view.Outline flat.toTreeView),
        flat.NoCircles → flat.SiblingsListed → flat.select selector = (do
          let selected ← tree.host.select selector
          pure (selected.map outline.place)) := by
  refine ⟨fun ν μ _ _ host other embedding noCircles noCirclesOther selector =>
    host.select_of_embedding other embedding noCircles noCirclesOther selector, ?_⟩
  intro document tree loaded selector
  have forest := (Tree.grown_of_ofDocument loaded).forest_of_builds
  exact ⟨forest.select_relisted selector, fun μ _ flat outline noCircles listed =>
    forest.select_of_outline outline noCircles listed selector⟩

/-- The division with an item in its list and an item after the list, the items made in the other
order. -/
def itemsSwapped : Tree :=
  (Edit.insert 2 (.element "li" .empty)).apply ((Edit.insert 1 (.element "li" .empty)).apply
    ((Edit.insert 1 (.element "ul" .empty)).apply
      ((Edit.insert 0 (.element "div" .empty)).apply .empty)))

/-- The number that a node has when the items are made in the other order. -/
def swapItems (id : NodeId) : NodeId := if id = 3 then 4 else if id = 4 then 3 else id

/-- A link between the first numbers is carried when it can be checked for each of them. -/
theorem carries_of_lt {bound : Nat} {place : NodeId → NodeId} {link other : NodeId → Option NodeId}
    (carried : ∀ id < bound,
      (link id).all (· < bound) ∧ other (place id) = (link id).map place) :
    Walk.Carries {id | id < bound} place link other where
  closed known leads := by
    have inside := (carried _ known).1
    rw [leads] at inside
    exact of_decide_eq_true inside
  same known := (carried _ known).2

/-- Every node holds what it holds in the other tree. -/
theorem content_swapItems :
    ∀ id < 5, itemsSwapped.content (swapItems id) = Tree.itemInList.content id := by
  decide

/-- The items are found in the other tree under each other's numbers. -/
def embeddingSwapped : Tree.itemInList.view.Embedding itemsSwapped.view where
  nodes := {id | id < 5}
  place := swapItems
  injective := by
    have apart : ∀ id < 5, ∀ other < 5, swapItems id = swapItems other → id = other := by decide
    exact fun id known other otherKnown => apart id known other otherKnown
  root_mem := show 0 < 5 by decide
  root := show swapItems 0 = 0 by decide
  kind id known := by simp only [Tree.view, content_swapItems id known]
  tagName id known := by simp only [Tree.view, content_swapItems id known]
  attributeOf id known := by simp only [Tree.view, content_swapItems id known]
  text id known _ := by simp only [Tree.view, content_swapItems id known]
  parent := carries_of_lt (by decide)
  children_mem := show ∀ id < 5, ∀ child ∈ Tree.itemInList.children id, child < 5 by decide
  children := show ∀ id < 5,
      itemsSwapped.children (swapItems id) = (Tree.itemInList.children id).map swapItems by decide
  previous := carries_of_lt (by decide)
  next := carries_of_lt (by decide)

/-- The item in the list is selected in both trees, and a document is searched alike by its tree
and by a host that reads siblings off child lists. -/
theorem select_eq_map_place_swapped :
    Tree.itemInList.host.NoCircles ∧ itemsSwapped.host.NoCircles ∧
    (Tree.itemInList.host.select "ul > li").outcome = .ok [3] ∧
    itemsSwapped.host.select "ul > li" = (do
      let selected ← Tree.itemInList.host.select "ul > li"
      pure (selected.map embeddingSwapped.place)) ∧
    ∃ tree, Tree.ofDocument Tree.nestedDocument = .ok tree ∧
      tree.view.relisted.host.NoCircles ∧ tree.view.relisted.host.SiblingsListed ∧
      tree.view.relisted.host.select "p b:nth-child(2)" = tree.host.select "p b:nth-child(2)" ∧
      tree.view.relisted.host.select "p b:nth-child(2)" = (do
        let selected ← tree.host.select "p b:nth-child(2)"
        pure (selected.map tree.view.outlineRelisted.place)) := by
  have noCircles : Tree.itemInList.host.NoCircles := Tree.noCircles_of_linksForward (by decide)
  have noCirclesOther : itemsSwapped.host.NoCircles := Tree.noCircles_of_linksForward (by decide)
  obtain ⟨tree, _, loaded, -⟩ := Tree.exists_attached Tree.nestedDocument.parts (by decide)
    Tree.Forest.empty.root_lt Tree.nestedDocument.partsDepth
  rw [← Tree.ofDocument_eq] at loaded
  have forest := (Tree.grown_of_ofDocument loaded).forest_of_builds
  have relisted : tree.view.relisted.host.NoCircles :=
    forest.noCircles.relisted forest.siblingsListed_view
  obtain ⟨same, mapped⟩ :=
    select_eq_map_place.2 Tree.nestedDocument tree loaded "p b:nth-child(2)"
  have selected : (Tree.itemInList.host.select "ul > li").outcome = .ok [3] := by decide +kernel
  have swapped := select_eq_map_place.1 NodeId NodeId Tree.itemInList.host itemsSwapped.host
    embeddingSwapped noCircles noCirclesOther "ul > li"
  exact ⟨noCircles, noCirclesOther, selected, swapped, tree, loaded, relisted, ⟨rfl, rfl⟩, same,
    mapped NodeId tree.view.relisted.host tree.view.outlineRelisted relisted ⟨rfl, rfl⟩⟩

end TreeQuery
