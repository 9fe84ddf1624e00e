import TreeQuery.Proofs.Tree.Forest
/-!
# Neighbours that links name

Where nodes are appended again, a tree is no forest: a node stays in the child list of an earlier
parent, a child list names it twice, and links between siblings stay when one of them moves on. Each
link still says what some child list says (`Listed`): a parent lists its child, and siblings stand
side by side in one list. Child lists only grow (`prefix_children_link`), so linking keeps this
(`Listed.link`), and every tree grown by edits between existing nodes has it
(`Grown.listed`). Where child lists lead in no circle, a walk down them meets every descendant
(`links_listed_of_grown`).
-/
namespace TreeQuery.Tree

/-- Whether a child list names two nodes one right after the other. -/
def SideBySide (tree : Tree) (former latter : NodeId) : Prop :=
  ∃ parent before after, tree.children parent = before ++ former :: latter :: after

/-- Every link of a tree says what some child list says. -/
structure Listed (tree : Tree) : Prop where
  /-- A parent lists its child. -/
  parent : ∀ {parent child}, tree.parent child = some parent → child ∈ tree.children parent
  /-- A node stands in a child list right behind the sibling before it. -/
  previous : ∀ {former latter}, tree.previous latter = some former → tree.SideBySide former latter
  /-- A node stands in a child list right before the sibling after it. -/
  next : ∀ {former latter}, tree.next former = some latter → tree.SideBySide former latter
  /-- Child lists name existing nodes. -/
  exist : ∀ {parent child}, child ∈ tree.children parent → child < tree.size

section Link

variable {tree : Tree} {parent child : NodeId}

/-- Linking takes nothing out of a child list. -/
theorem prefix_children_link (parentKnown : parent < tree.size) (child id : NodeId) :
    tree.children id <+: (tree.link parent child).children id := by
  rw [children_link parentKnown]
  split
  · rename_i here
    rw [here]
    exact List.prefix_append _ _
  · exact List.prefix_rfl

/-- Linking leaves nodes side by side that stood so. -/
theorem SideBySide.link (parentKnown : parent < tree.size) {former latter : NodeId}
    (beside : tree.SideBySide former latter) :
    (tree.link parent child).SideBySide former latter := by
  obtain ⟨above, before, after, whole⟩ := beside
  obtain ⟨more, grown⟩ := prefix_children_link parentKnown child above
  exact ⟨above, before, after ++ more, by simp [← grown, whole]⟩

/-- Linking puts the child beside the last child before it. -/
theorem sideBySide_link_last (parentKnown : parent < tree.size) {last : NodeId}
    (ends : (tree.children parent).getLast? = some last) :
    (tree.link parent child).SideBySide last child := by
  obtain ⟨before, whole⟩ := List.getLast?_eq_some_iff.mp ends
  refine ⟨parent, before, [], ?_⟩
  rw [children_link parentKnown, if_pos rfl, whole, List.append_assoc]
  rfl

end Link

namespace Listed

variable {tree : Tree}

/-- In a root alone there is no link to say anything. -/
theorem empty : Tree.empty.Listed where
  parent {_ child} leads := by simp [(Forest.links_empty child).1] at leads
  previous {_ latter} leads := by simp [(Forest.links_empty latter).2.1] at leads
  next {former _} leads := by simp [(Forest.links_empty former).2.2.1] at leads
  exist {parent _} listed := by simp [(Forest.links_empty parent).2.2.2] at listed

/-- The last child of a node exists. -/
theorem lastExists (links : tree.Listed) (parent : NodeId) : tree.lastExists parent :=
  lastExists_of_lt fun _ listed => links.exist listed

/-- Making a node keeps what the links say. -/
theorem push (links : tree.Listed) (content : Content) : (tree.push content).Listed where
  parent leads := by simpa using links.parent (by simpa using leads)
  previous leads := by simpa [SideBySide] using links.previous (by simpa using leads)
  next leads := by simpa [SideBySide] using links.next (by simpa using leads)
  exist listed := lt_size_push (links.exist (by simpa using listed)) content

/-- Linking two existing nodes keeps what the links say, whatever parent the child had. -/
theorem link (links : tree.Listed) {parent child : NodeId} (parentKnown : parent < tree.size)
    (childKnown : child < tree.size) : (tree.link parent child).Listed where
  parent {above below} leads := by
    rw [parent_link childKnown] at leads
    by_cases new : below = child
    · rw [if_pos new, Option.some.injEq] at leads
      rw [children_link parentKnown, if_pos leads.symm, new]
      exact List.mem_append_right _ List.mem_cons_self
    · rw [if_neg new] at leads
      exact (prefix_children_link parentKnown child above).subset (links.parent leads)
  previous {former latter} leads := by
    rw [previous_link childKnown] at leads
    by_cases new : latter = child
    · rw [if_pos new] at leads
      rcases Option.or_eq_some_iff.mp leads with ends | ⟨-, old⟩
      · exact new ▸ sideBySide_link_last parentKnown ends
      · exact (links.previous (new ▸ old)).link parentKnown
    · rw [if_neg new] at leads
      exact (links.previous leads).link parentKnown
  next {former latter} leads := by
    rw [next_link (links.lastExists parent)] at leads
    by_cases ends : (tree.children parent).getLast? = some former
    · rw [if_pos ends, Option.some.injEq] at leads
      exact leads ▸ sideBySide_link_last parentKnown ends
    · rw [if_neg ends] at leads
      exact (links.next leads).link parentKnown
  exist {above below} listed := by
    rw [size_link]
    rw [children_link parentKnown] at listed
    split at listed
    · rcases List.mem_append.mp listed with old | new
      · exact links.exist old
      · rwa [List.mem_singleton.mp new]
    · exact links.exist listed

/-- Every edit between existing nodes keeps what the links say. -/
theorem apply (links : tree.Listed) {edit : Edit} (known : edit.Known tree) :
    (edit.apply tree).Listed := by
  cases known with
  | make => exact links.push _
  | @insert parent content known =>
    rw [Edit.apply, insert_of_lt content known (links.lastExists parent)]
    exact (links.push content).link (lt_size_push known content) (by simp)
  | @append parent child parentKnown childKnown =>
    rw [Edit.apply, append_of_lt parentKnown childKnown (links.lastExists parent)]
    exact links.link parentKnown childKnown

/-- Child lists lead down to every descendant of a node. -/
theorem below_of_isDescendant (links : tree.Listed) {lower upper : NodeId}
    (descends : tree.isDescendant lower upper) :
    Relation.TransGen (Walk.Names tree.children) upper lower := by
  have upwards : Relation.TransGen (fun node met => tree.parent node = some met) lower upper :=
    Walk.transGen_of_mem_chain (List.contains_iff_mem.mp descends)
  exact Relation.TransGen.mono (fun _ _ leads => links.parent leads) _ _
    (Relation.transGen_swap.mpr upwards)

end Listed

/-- In a tree grown by edits between existing nodes every link says what some child list says. -/
theorem Grown.listed {tree : Tree} (grown : tree.Grown Edit.Known) : tree.Listed :=
  grown.invariant Listed.empty fun _ _ links known => links.apply known

/-- In a tree grown by edits between existing nodes, nodes with a parent already and nodes appended
twice among them, a parent lists its child, and siblings stand side by side in some child list. If
child lists lead in no circle, every descendant of a node is listed below it. -/
theorem links_listed_of_grown {tree : Tree} (grown : tree.Grown Edit.Known) :
    (∀ parent child, tree.parent child = some parent → child ∈ tree.children parent) ∧
    (∀ former latter, tree.previous latter = some former ∨ tree.next former = some latter →
      tree.SideBySide former latter) ∧
    (Walk.NoCircle (Walk.Names tree.children) →
      ∀ lower upper, tree.isDescendant lower upper → lower ∈ tree.descendants upper) := by
  have links := grown.listed
  refine ⟨fun _ _ => links.parent, fun _ _ beside => beside.elim links.previous links.next, ?_⟩
  intro noCircle lower upper descends
  have ordered := tree.view.documentOrder_of_noCircle noCircle upper
  exact (ordered.mem_iff lower).mpr
    (Relation.TransGen.head'_iff.mp (links.below_of_isDescendant descends))

/-- Two lists, the first one with two items. -/
def twoLists : Tree :=
  (Edit.insert 1 (.element "li" .empty)).apply ((Edit.insert 1 (.element "li" .empty)).apply
    ((Edit.insert 0 (.element "ol" .empty)).apply
      ((Edit.insert 0 (.element "ul" .empty)).apply .empty)))

/-- The first item has moved to the second list and stands there twice. -/
def movedItem : Tree := (Edit.append 2 3).apply ((Edit.append 2 3).apply twoLists)

/-- The item that moved is still listed where it was, and the item behind it there still names it
as the sibling before. It follows itself in the second list, and is listed below that twice. -/
theorem links_listed_of_grown_movedItem :
    movedItem.Grown Edit.Known ∧ Walk.NoCircle (Walk.Names movedItem.children) ∧
    movedItem.children 1 = [3, 4] ∧ movedItem.children 2 = [3, 3] ∧
    movedItem.parent 3 = some 2 ∧ movedItem.previous 4 = some 3 ∧ movedItem.next 3 = some 3 ∧
    movedItem.SideBySide 3 4 ∧ movedItem.SideBySide 3 3 ∧ 3 ∈ movedItem.descendants 2 := by
  have lists : twoLists.Grown Edit.Known :=
    .edit (.edit (.edit (.edit .empty (.insert (by decide))) (.insert (by decide)))
      (.insert (by decide))) (.insert (by decide))
  have grown : movedItem.Grown Edit.Known :=
    .edit (.edit lists (.append (by decide) (by decide))) (.append (by decide) (by decide))
  have noCircle : Walk.NoCircle (Walk.Names movedItem.children) := by
    apply noCircle_children_of_lt
    decide
  obtain ⟨-, beside, below⟩ := links_listed_of_grown grown
  exact ⟨grown, noCircle, by decide, by decide, by decide, by decide, by decide,
    beside 3 4 (.inl (by decide)), beside 3 3 (.inr (by decide)),
    below noCircle 3 2 (by decide)⟩

end TreeQuery.Tree
