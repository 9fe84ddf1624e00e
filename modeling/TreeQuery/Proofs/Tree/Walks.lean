import TreeQuery.Proofs.Tree.Forest
/-!
# Walks in a forest

In a forest every walk ends before it has followed as many links as there are nodes
(`Forest.walksEnd`), so the bounds of the walks cut nothing off. Looking up along parents and down
along child lists tells the same nodes apart: a node is a descendant of another exactly when it lies
below it (`Forest.isDescendant_iff`), and then it is listed below it once, in document order.
-/
namespace TreeQuery.Tree

/-- Every walk from a node ends before it has followed as many links as there are nodes, and what
the walks of a tree list is all that a longer walk would list. -/
structure WalksEnd (tree : Tree) (id : NodeId) : Prop where
  /-- Fewer parents than nodes follow one another. -/
  parent : Walk.Within (fun node met => tree.parent node = some met) (tree.size - 1) id
  /-- Fewer elder siblings than nodes follow one another. -/
  previous : Walk.Within (fun node met => tree.previous node = some met) (tree.size - 1) id
  /-- Fewer younger siblings than nodes follow one another. -/
  next : Walk.Within (fun node met => tree.next node = some met) (tree.size - 1) id
  /-- Fewer children than nodes follow one another, whichever child is taken. -/
  children : Walk.Within (Walk.Names tree.children) (tree.size - 1) id
  /-- The ancestors are all there are. -/
  ancestors : ∀ bound, tree.size ≤ bound + 1 →
    Walk.chain tree.parent bound id = tree.ancestors id
  /-- The siblings listed before a node are all there are. -/
  preceding : ∀ bound, tree.size ≤ bound + 1 →
    Walk.chain tree.previous bound id = tree.preceding id
  /-- The siblings listed after a node are all there are. -/
  following : ∀ bound, tree.size ≤ bound + 1 →
    Walk.chain tree.next bound id = tree.following id
  /-- The nodes listed below a node are all there are. -/
  descendants : ∀ bound, tree.size ≤ bound + 1 →
    Walk.below tree.children bound id = tree.descendants id

namespace Forest

variable {tree : Tree}

/-- A link between nodes of the tree that leads in no circle is followed fewer times than there are
nodes. -/
theorem within_links (forest : tree.Forest) {link : NodeId → NodeId → Prop}
    (noCircle : Walk.NoCircle link)
    (known : ∀ node met, link node met → node < tree.size ∧ met < tree.size) (id : NodeId) :
    Walk.Within link (tree.size - 1) id := by
  have positive := forest.root_lt
  have among : ∀ node met, link node met →
      node ∈ List.range tree.size ∧ met ∈ List.range tree.size := by
    intro node met leads
    rw [List.mem_range, List.mem_range]
    exact known node met leads
  exact Walk.within_of_among noCircle among (by rw [List.length_range]; omega) id

/-- Fewer parents than nodes follow one another. -/
theorem within_parent (forest : tree.Forest) (id : NodeId) :
    Walk.Within (fun node met => tree.parent node = some met) (tree.size - 1) id :=
  forest.within_links forest.noCircle (fun _ _ leads => ⟨child_lt leads, forest.parent_lt leads⟩) id

/-- Fewer elder siblings than nodes follow one another. -/
theorem within_previous (forest : tree.Forest) (id : NodeId) :
    Walk.Within (fun node met => tree.previous node = some met) (tree.size - 1) id := by
  refine forest.within_links forest.noCircles.previous
    (fun node met (stands : tree.previous node = some met) => ?_) id
  have other := forest.next_eq_some_iff_previous.mpr stands
  exact ⟨lt_size_of_linked (.inr (.inl (by simp [stands]))),
    lt_size_of_linked (.inr (.inr (.inl (by simp [other]))))⟩

/-- Fewer younger siblings than nodes follow one another. -/
theorem within_next (forest : tree.Forest) (id : NodeId) :
    Walk.Within (fun node met => tree.next node = some met) (tree.size - 1) id := by
  refine forest.within_links forest.noCircles.next
    (fun node met (stands : tree.next node = some met) => ?_) id
  have other := forest.next_eq_some_iff_previous.mp stands
  exact ⟨lt_size_of_linked (.inr (.inr (.inl (by simp [stands])))),
    lt_size_of_linked (.inr (.inl (by simp [other])))⟩

/-- Fewer children than nodes follow one another, whichever child is taken. -/
theorem within_children (forest : tree.Forest) (id : NodeId) :
    Walk.Within (Walk.Names tree.children) (tree.size - 1) id := by
  refine forest.within_links forest.branching.noCircle (fun node met names => ?_) id
  have leads := (forest.listed node met).mp names
  exact ⟨forest.parent_lt leads, child_lt leads⟩

/-- In a forest, the ancestors of a node are met by following parents until there is none. -/
theorem meets_ancestors (forest : tree.Forest) (id : NodeId) :
    Walk.Meets tree.parent id (tree.ancestors id) :=
  Walk.meets_chain ((forest.within_parent id).mono (Nat.sub_le _ _))

/-- In a forest, the siblings before a node are met by going back until there is none. -/
theorem meets_preceding (forest : tree.Forest) (id : NodeId) :
    Walk.Meets tree.previous id (tree.preceding id) :=
  Walk.meets_chain ((forest.within_previous id).mono (Nat.sub_le _ _))

/-- In a forest, the siblings after a node are met by going on until there is none. -/
theorem meets_following (forest : tree.Forest) (id : NodeId) :
    Walk.Meets tree.next id (tree.following id) :=
  Walk.meets_chain ((forest.within_next id).mono (Nat.sub_le _ _))

/-- In a forest every walk ends within its bound. -/
theorem walksEnd (forest : tree.Forest) (id : NodeId) : tree.WalksEnd id where
  parent := forest.within_parent id
  previous := forest.within_previous id
  next := forest.within_next id
  children := forest.within_children id
  ancestors bound fits := Walk.chain_eq_of_within
    ((forest.within_parent id).mono (by omega)) ((forest.within_parent id).mono (by omega))
  preceding bound fits := Walk.chain_eq_of_within
    ((forest.within_previous id).mono (by omega)) ((forest.within_previous id).mono (by omega))
  following bound fits := Walk.chain_eq_of_within
    ((forest.within_next id).mono (by omega)) ((forest.within_next id).mono (by omega))
  descendants bound fits := by
    have ordered := Walk.documentOrder_below ((forest.within_children id).mono
      (show tree.size - 1 ≤ bound by omega))
    exact ordered.unique (TreeView.documentOrder_descendants forest.noCircles id)

/-- A node is a descendant of another when it lies below it. -/
theorem isDescendant_iff (forest : tree.Forest) (lower upper : NodeId) :
    tree.isDescendant lower upper ↔ Relation.TransGen (Walk.Names tree.children) upper lower := by
  have within := (forest.within_parent lower).mono (Nat.sub_le tree.size 1)
  have backwards : Walk.Names tree.children =
      Function.swap fun node met => tree.parent node = some met := by
    funext upper lower
    exact propext (forest.listed upper lower)
  rw [isDescendant, List.contains_iff_mem, ancestors, Walk.mem_chain_iff within, backwards,
    Relation.transGen_swap]

/-- A node that is neither another one nor among its ancestors is not at or above it. -/
theorem not_above (forest : tree.Forest) {upper lower : NodeId} (different : upper ≠ lower)
    (apart : ¬tree.isDescendant lower upper) :
    ¬Relation.ReflTransGen (fun node met => tree.parent node = some met) lower upper := by
  intro way
  rcases Relation.reflTransGen_iff_eq_or_transGen.mp way with same | above
  · exact different same
  · refine apart (List.contains_iff_mem.mpr ?_)
    exact (Walk.mem_chain_iff ((forest.within_parent lower).mono (Nat.sub_le _ _)) upper).mpr above

/-- The nodes below a node are listed in document order. -/
theorem documentOrder_descendants (forest : tree.Forest) (id : NodeId) :
    Walk.DocumentOrder tree.children (tree.children id) (tree.descendants id) :=
  TreeView.documentOrder_descendants forest.noCircles id

/-- A node and what lies below it are listed in document order. -/
theorem documentOrder_cons_descendants (forest : tree.Forest) (id : NodeId) :
    Walk.DocumentOrder tree.children [id] (id :: tree.descendants id) := by
  have ordered : Walk.DocumentOrder tree.children [id] (id :: (tree.descendants id ++ [])) :=
    .cons (forest.documentOrder_descendants id) .nil
  rw [List.append_nil] at ordered
  exact ordered

/-- A node with all that lies below it is listed without repetitions. -/
theorem nodup_cons_descendants (forest : tree.Forest) (id : NodeId) :
    (id :: tree.descendants id).Nodup :=
  (forest.documentOrder_cons_descendants id).nodup forest.branching (List.pairwise_singleton _ _)

/-- Of a node and what lies below it, the descendants of one of them are what is listed below that
one, in the same order. -/
theorem filter_isDescendant (forest : tree.Forest) {top scope : NodeId}
    (listed : scope ∈ top :: tree.descendants top) :
    (tree.descendants top).filter (tree.isDescendant · scope) = tree.descendants scope := by
  have kept : (top :: tree.descendants top).filter (tree.isDescendant · scope) =
      tree.descendants scope :=
    (forest.documentOrder_cons_descendants top).filter_below (forest.nodup_cons_descendants top)
      listed (forest.documentOrder_descendants scope) fun node =>
        forest.isDescendant_iff node scope
  have above : ¬tree.isDescendant top scope := by
    rw [forest.isDescendant_iff]
    intro below
    rcases List.mem_cons.mp listed with rfl | listedBelow
    · exact forest.branching.noCircle _ below
    · rw [(forest.documentOrder_descendants top).mem_iff] at listedBelow
      obtain ⟨child, names, way⟩ := listedBelow
      exact forest.branching.noCircle top ((Relation.TransGen.head' names way).trans below)
  rw [List.filter_cons, if_neg above] at kept
  exact kept

end Forest

/-- In a tree built by inserting parts child lists lead from the root to every node. -/
theorem Grown.reached {tree : Tree} (grown : tree.Grown Edit.Builds) :
    ∀ id < tree.size, Relation.ReflTransGen (Walk.Names tree.children) root id := by
  refine grown.builds_induction ?start ?step
  case start =>
    intro id known
    obtain rfl : id = 0 := Nat.lt_one_iff.mp known
    exact .refl
  case step =>
    intro tree parent content _ reached known _ id inside
    have more : ∀ above below, Walk.Names tree.children above below →
        Walk.Names (tree.add parent content).children above below := by
      intro above below names
      rw [Walk.Names, children_add known]
      split
      · rename_i here
        exact List.mem_append_left _ (here ▸ names)
      · exact names
    rw [size_add] at inside
    rcases Nat.lt_succ_iff_lt_or_eq.mp inside with old | rfl
    · exact Relation.ReflTransGen.mono more _ _ (reached id old)
    · refine .tail (Relation.ReflTransGen.mono more _ _ (reached parent known)) ?_
      rw [Walk.Names, children_add known, if_pos rfl]
      exact List.mem_append_right _ List.mem_cons_self

/-- In a tree built by inserting parts every node is the root or is listed below it. -/
theorem Grown.mem_root_descendants {tree : Tree} (grown : tree.Grown Edit.Builds) {id : NodeId}
    (known : id < tree.size) : id ∈ root :: tree.descendants root := by
  rcases Relation.reflTransGen_iff_eq_or_transGen.mp (grown.reached id known) with rfl | below
  · exact List.mem_cons_self
  · rw [Relation.TransGen.head'_iff] at below
    exact List.mem_cons_of_mem _
      (((grown.forest_of_builds.documentOrder_descendants root).mem_iff id).mpr below)

/-- A tree grown by edits that fit is a forest, and every walk in it ends before it has followed as
many links as there are nodes. -/
theorem links_of_grown {tree : Tree} (grown : tree.Grown Edit.Fits) :
    tree.Forest ∧ ∀ id, tree.WalksEnd id :=
  ⟨grown.forest, grown.forest.walksEnd⟩

/-- A list with an item, made apart from a division that was added after it. -/
def twoParts : Tree :=
  (Edit.insert 0 (.element "div" .empty)).apply
    ((Edit.insert 1 (.element "li" .empty)).apply ((Edit.make (.element "ul" .empty)).apply .empty))

/-- The list is put into the division with all that is below it. -/
theorem links_of_grown_graft :
    (Edit.append 3 1).Fits twoParts ∧ ((Edit.append 3 1).apply twoParts).Grown Edit.Fits ∧
      ((Edit.append 3 1).apply twoParts).descendants root = [3, 1, 2] ∧
      ((Edit.append 3 1).apply twoParts).Forest ∧
      ∀ id, ((Edit.append 3 1).apply twoParts).WalksEnd id := by
  have grown : twoParts.Grown Edit.Fits :=
    .edit (.edit (.edit .empty Edit.Fits.make) (.insert (by decide))) (.insert (by decide))
  have fits : (Edit.append 3 1).Fits twoParts :=
    .append (by decide) (by decide) (by decide) (by decide)
      (grown.forest.not_above (by decide) (by decide))
  have below := TreeView.descendants_eq_below ((Edit.append 3 1).apply twoParts).view root
  have listed : ((Edit.append 3 1).apply twoParts).descendants root = [3, 1, 2] :=
    below.trans (by decide)
  exact ⟨fits, .edit grown fits, listed, links_of_grown (.edit grown fits)⟩

end TreeQuery.Tree
