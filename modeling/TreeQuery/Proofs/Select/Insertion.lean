import TreeQuery.Proofs.Select.Abridged
import TreeQuery.Proofs.Select.Scope
/-!
# Selecting in a tree that has grown

A node that is added at the end of a child list has nothing below it, and no earlier node has it
for an ancestor or an elder sibling. So the tree before is the tree after with the new node left
out (`Forest.abridges_add`), and a selector that does not ask for last children selects, but for
the new node, what it selected before.
-/
namespace TreeQuery.Tree

variable {tree : Tree} {parent : NodeId}

/-- Which numbers belong to nodes that were there before the next one is added. -/
def old (tree : Tree) (id : NodeId) : Bool := id != tree.size

namespace Forest

section Add

variable (forest : tree.Forest) (content : Content)

include forest

/-- Parents stay as they are when a node is added. -/
theorem carries_parent_add : Walk.Carries {id | tree.old id} id
    (tree.add parent content).parent tree.parent where
  closed {id met} known leads := by
    rw [parent_add, if_neg (bne_iff_ne.mp known)] at leads
    exact bne_iff_ne.mpr (Nat.ne_of_lt (forest.parent_lt leads))
  same {id} known := by
    rw [parent_add, if_neg (bne_iff_ne.mp known), Option.map_id_apply, id_eq]

/-- Elder siblings stay as they are when a node is added. -/
theorem carries_previous_add : Walk.Carries {id | tree.old id} id
    (tree.add parent content).previous tree.previous where
  closed {id met} known stands := by
    rw [previous_add tree parent content (bne_iff_ne.mp known)] at stands
    exact bne_iff_ne.mpr (Nat.ne_of_lt (forest.previous_lt stands))
  same {id} known := by
    rw [previous_add tree parent content (bne_iff_ne.mp known), Option.map_id_apply, id_eq]

variable (known : parent < tree.size)

include known

/-- The siblings before a node stay as they are when a node is added. -/
theorem preceding_add {node : NodeId} (before : tree.old node) :
    tree.preceding node = (tree.add parent content).preceding node := by
  have carried : Walk.Carries {id | tree.old id} id (tree.add parent content).previous
      tree.previous := forest.carries_previous_add content
  have same := carried.chain_eq before ((forest.add content known).noCircles.within_previous node)
    (forest.noCircles.within_previous node)
  rw [List.map_id] at same
  exact same

/-- A tree to which a node is added is the tree before with that node more. -/
theorem abridges_add : tree.view.Abridges (tree.add parent content).view tree.old where
  alike id before := by
    have held : (tree.add parent content).content id = tree.content id := by
      rw [content_add, if_neg (bne_iff_ne.mp before)]
    constructor <;> simp only [view, held, implies_true]
  parent := forest.carries_parent_add content
  children id _ := by
    have all : (tree.children id).filter tree.old = tree.children id :=
      List.filter_eq_self.mpr fun child listed =>
        bne_iff_ne.mpr (Nat.ne_of_lt (forest.lt_of_mem_children listed))
    change tree.children id = ((tree.add parent content).children id).filter tree.old
    rw [children_add known]
    split
    · rename_i here
      rw [← here, List.filter_append, all]
      simp [old]
    · exact all.symm
  bare id new := by
    obtain rfl : id = tree.size := by simpa [old] using new
    change (tree.add parent content).children tree.size = []
    rw [children_add known, if_neg (Nat.ne_of_gt known), children_of_le (Nat.le_refl _)]
  preceding id before := by
    change tree.preceding id = ((tree.add parent content).preceding id).filter tree.old
    refine (forest.preceding_add content known before).trans (List.filter_eq_self.mpr ?_).symm
    exact fun met => (forest.carries_previous_add content).mem_of_mem_chain before
  passed id before met listed new :=
    absurd ((forest.carries_previous_add content).mem_of_mem_chain before listed) new

/-- A query that does not ask for last children selects, when a node is added, what it selected
before and perhaps the new node. -/
theorem matched_add {query : Query}
    (noLast : ∀ compound ∈ query.compounds, .pseudoClass .lastChild ∉ compound.predicates)
    {scope : NodeId} (scopeKnown : scope < tree.size) :
    tree.host.matched scope query =
      ((tree.add parent content).host.matched scope query).filter (· != tree.size) := by
  have unaffected : tree.view.Unaffected (tree.add parent content).view tree.old query :=
    ⟨fun compound listed asked => absurd asked (noLast compound listed),
      fun _ _ _ => forest.carries_previous_add content⟩
  have before : tree.old scope := bne_iff_ne.mpr (Nat.ne_of_lt scopeKnown)
  have abridges : tree.host.Abridges (tree.add parent content).host.toTreeView tree.old :=
    forest.abridges_add content known
  exact Host.matched_eq_filter_kept abridges (forest.add content known).noCircles
    forest.noCircles unaffected before

end Add

end Forest

/-- When a node is inserted below an existing one, a selector none of whose tokens asks for last
children selects from every earlier scope what it selected before, in the same order, and perhaps
the new node; or it fails with the same error. -/
theorem selectBelow_insert (grown : tree.Grown Edit.Fits) (known : parent < tree.size)
    (content : Content) {scope : NodeId} (scopeKnown : scope < tree.size) {selector : String}
    (noLast : ∀ token, .ok (.token token) ∈ (Cursor.ofSelector selector).segments →
      ∀ compound, (Compound.parse token).outcome = .ok compound →
        .pseudoClass .lastChild ∉ compound.predicates) :
    (tree.insert parent content).2 = some tree.size ∧
    tree.host.selectBelow scope selector = (do
      let selected ← ((Edit.insert parent content).apply tree).host.selectBelow scope selector
      pure (selected.filter (· != tree.size))) := by
  have forest := grown.forest
  refine ⟨by rw [insert_of_lt content known (forest.lastExists parent)], ?_⟩
  rw [forest.apply_insert known, Host.selectBelow_eq, Host.selectBelow_eq, bind_assoc]
  refine Diagnosed.bind_congr_of_ok fun query read => ?_
  rw [pure_bind, forest.matched_add content known ?_ scopeKnown]
  intro compound listed
  obtain ⟨token, inside, compoundRead⟩ := Query.exists_token_of_mem_compounds read listed
  exact noLast token inside compound compoundRead

/-- An item is added at the end of a list, and the item before it is still selected. -/
theorem selectBelow_insert_item :
    itemInList.Grown Edit.Fits ∧ 2 < itemInList.size ∧ 1 < itemInList.size ∧
    (∀ token, .ok (.token token) ∈ (Cursor.ofSelector "ul > li:nth-child(n)").segments →
      ∀ compound, (Compound.parse token).outcome = .ok compound →
        .pseudoClass .lastChild ∉ compound.predicates) ∧
    (((Edit.insert 2 (.element "li" .empty)).apply itemInList).host.selectBelow 1
      "ul > li:nth-child(n)").outcome = .ok [3, 5] ∧
    (itemInList.insert 2 (.element "li" .empty)).2 = some itemInList.size ∧
    itemInList.host.selectBelow 1 "ul > li:nth-child(n)" = (do
      let selected ← ((Edit.insert 2 (.element "li" .empty)).apply itemInList).host.selectBelow 1
        "ul > li:nth-child(n)"
      pure (selected.filter (· != itemInList.size))) := by
  have grown : itemInList.Grown Edit.Fits :=
    .edit (.edit (.edit (.edit .empty (.insert (by decide))) (.insert (by decide)))
      (.insert (by decide))) (.insert (by decide))
  have segments : (Cursor.ofSelector "ul > li:nth-child(n)").segments =
      [.ok (.token "li:nth-child(n)".toList), .ok (.combinator .child),
        .ok (.token "ul".toList)] := by decide +kernel
  have noLast : ∀ token, .ok (.token token) ∈ (Cursor.ofSelector "ul > li:nth-child(n)").segments →
      ∀ compound, (Compound.parse token).outcome = .ok compound →
        .pseudoClass .lastChild ∉ compound.predicates := by
    intro token inside compound read
    simp only [segments, List.mem_cons, Except.ok.injEq, Segment.token.injEq, reduceCtorEq,
      List.not_mem_nil, or_false, false_or] at inside
    rcases inside with rfl | rfl
    · have item : (Compound.parse "li:nth-child(n)".toList).outcome = .ok
          ⟨⟨.named "li", none, []⟩, [.pseudoClass (.nthChild (.formula none none))]⟩ := by
        decide +kernel
      rw [item] at read
      cases read
      simp
    · have list : (Compound.parse "ul".toList).outcome = .ok ⟨⟨.named "ul", none, []⟩, []⟩ := by
        decide +kernel
      rw [list] at read
      cases read
      simp
  exact ⟨grown, by decide, by decide, noLast, by decide +kernel,
    selectBelow_insert grown (by decide) (.element "li" .empty) (by decide) noLast⟩

end TreeQuery.Tree
