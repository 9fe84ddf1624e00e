import Mathlib.Data.Nat.Count
import TreeQuery.Proofs.Document.Condensed
import TreeQuery.Proofs.Tree.Loading
import TreeQuery.Proofs.TreeView.Condensed
/-!
# Loading what is left of a document

A document and what is left of it without comments and blank texts are loaded side by side. A node
of the first tree that is content has a rank: the number of earlier nodes that are content. In the
second tree it stands under its rank, and has there its content, the rank of its parent, and the
ranks of its children that are content (`Condenses`). Adding what is no content keeps that without
a step in the second tree, and adding content keeps it with one (`Condenses.skip`,
`Condenses.keep`); so it holds of the two loaded trees (`exists_condensed`), and the pruned view of
the first is outlined in the second (`Condenses.outline`).
-/
namespace TreeQuery.Tree

/-- How many nodes before a number count as content. -/
def rank (tree : Tree) (id : NodeId) : NodeId :=
  Nat.count (fun before => tree.view.isSignificant before) id

/-- The ranks of the children of a node that count as content. -/
def rankedChildren (tree : Tree) (id : NodeId) : List NodeId :=
  ((tree.children id).filter tree.view.isSignificant).map tree.rank

/-- A node counts as content when what it holds does. -/
theorem isSignificant_eq {tree : Tree} {id : NodeId} {content : Content}
    (held : tree.content id = some content) :
    tree.view.isSignificant id = content.isSignificant := by
  have kind : tree.view.kind id = content.kind := by simp [view, held]
  have text : tree.view.text id = content.data? := by simp [view, held]
  rw [TreeView.isSignificant, TreeView.isInsignificant, kind, text]
  cases content <;> rfl

section Grown

variable {tree grown : Tree} (kept : ∀ id < tree.size, grown.content id = tree.content id)

include kept

/-- Earlier nodes that hold what they held count as they did. -/
theorem isSignificant_of_kept {id : NodeId} (old : id < tree.size) :
    grown.view.isSignificant id = tree.view.isSignificant id := by
  simp only [TreeView.isSignificant, TreeView.isInsignificant, view, kept id old]

/-- Where earlier nodes hold what they held, ranks stay as they were. -/
theorem rank_of_kept {id : NodeId} (old : id ≤ tree.size) : grown.rank id = tree.rank id := by
  refine List.countP_congr fun before listed => ?_
  have earlier := List.mem_range.mp listed
  simp only [isSignificant_of_kept kept (Nat.lt_of_lt_of_le earlier old)]

end Grown

section Add

variable {tree : Tree} {parent : NodeId} (content : Content)

/-- Earlier nodes hold what they held when a node is added. -/
theorem content_add_of_lt :
    ∀ id < tree.size, (tree.add parent content).content id = tree.content id := by
  intro id old
  rw [content_add, if_neg (Nat.ne_of_lt old)]

/-- An added node counts when its content does. -/
theorem isSignificant_add_size :
    (tree.add parent content).view.isSignificant tree.size = content.isSignificant := by
  apply isSignificant_eq
  rw [content_add, if_pos rfl]

/-- An added node that counts gives the next number a higher rank. -/
theorem rank_add_size : (tree.add parent content).rank (tree.size + 1) =
    tree.rank tree.size + if content.isSignificant then 1 else 0 := by
  have before : (tree.add parent content).rank tree.size = tree.rank tree.size :=
    rank_of_kept (content_add_of_lt content) (Nat.le_refl _)
  rw [rank, Nat.count_succ, isSignificant_add_size]
  exact congrArg (· + _) before

/-- An added node that counts comes behind the children of its parent that count. -/
theorem rankedChildren_add (forest : tree.Forest) (known : parent < tree.size) (id : NodeId) :
    (tree.add parent content).rankedChildren id = tree.rankedChildren id ++
      if id = parent ∧ content.isSignificant then [tree.rank tree.size] else [] := by
  have kept : ∀ id < tree.size, (tree.add parent content).content id = tree.content id :=
    content_add_of_lt content
  have inside : ∀ child ∈ tree.children id, child < tree.size :=
    fun _ listed => forest.lt_of_mem_children listed
  have old : ((tree.children id).filter (tree.add parent content).view.isSignificant).map
      (tree.add parent content).rank = tree.rankedChildren id := by
    have counted := List.filter_congr fun child listed =>
      isSignificant_of_kept kept (inside child listed)
    rw [counted, rankedChildren]
    refine List.map_congr_left fun child listed => rank_of_kept kept ?_
    exact Nat.le_of_lt (inside child (List.mem_filter.mp listed).1)
  have new : (tree.add parent content).rank tree.size = tree.rank tree.size :=
    rank_of_kept kept (Nat.le_refl _)
  rw [rankedChildren, children_add known]
  by_cases here : id = parent
  · subst here
    rw [if_pos rfl, List.filter_append, List.map_append, old]
    by_cases counts : content.isSignificant <;>
      simp [isSignificant_add_size, counts, new]
  · simp [here, old]

end Add

/-- A tree holds what counts as content in another, under ranks. -/
structure Condenses (slim tree : Tree) : Prop where
  /-- The other tree is a forest. -/
  forest : tree.Forest
  /-- What counts for nothing has no children. -/
  bare : ∀ id, ¬tree.view.isSignificant id → tree.children id = []
  /-- There is a node for all that counts. -/
  size : slim.size = tree.rank tree.size
  /-- What counts holds the same. -/
  content : ∀ id < tree.size, tree.view.isSignificant id →
    slim.content (tree.rank id) = tree.content id
  /-- What counts has the parent that it had. -/
  parent : ∀ id < tree.size, tree.view.isSignificant id →
    slim.parent (tree.rank id) = (tree.parent id).map tree.rank
  /-- What counts has the children that count. -/
  children : ∀ id < tree.size, tree.view.isSignificant id →
    slim.children (tree.rank id) = tree.rankedChildren id

namespace Condenses

/-- A root alone is what counts in a root alone. -/
theorem empty : Tree.empty.Condenses Tree.empty where
  forest := .empty
  bare id _ := (Forest.links_empty id).2.2.2
  size := rfl
  content id known _ := by
    obtain rfl : id = 0 := Nat.lt_one_iff.mp known
    rfl
  parent id known _ := by
    obtain rfl : id = 0 := Nat.lt_one_iff.mp known
    rfl
  children id known _ := by
    obtain rfl : id = 0 := Nat.lt_one_iff.mp known
    rfl

variable {slim tree : Tree} (condenses : slim.Condenses tree)

include condenses

/-- What counts has a node in the other tree. -/
theorem rank_lt {id : NodeId} (known : id < tree.size) (counts : tree.view.isSignificant id) :
    tree.rank id < slim.size := by
  rw [condenses.size]
  exact Nat.count_strict_mono counts known

section Add

variable {parent : NodeId} (content : Content)

/-- An earlier node that counts after adding another has counted before, and has its rank and its
parent's rank still. -/
theorem earlier_add {id : NodeId} (old : id < tree.size)
    (counted : (tree.add parent content).view.isSignificant id) :
    tree.view.isSignificant id ∧ (tree.add parent content).rank id = tree.rank id ∧
      ((tree.add parent content).parent id).map (tree.add parent content).rank =
        (tree.parent id).map tree.rank := by
  rw [isSignificant_of_kept (content_add_of_lt content) old] at counted
  refine ⟨counted, rank_of_kept (content_add_of_lt content) (Nat.le_of_lt old), ?_⟩
  rw [parent_add, if_neg (Nat.ne_of_lt old)]
  refine Option.map_congr fun above leads => rank_of_kept (content_add_of_lt content) ?_
  exact Nat.le_of_lt (condenses.forest.parent_lt leads)

/-- The rank of an added node is the number of the node added to the other tree. -/
theorem rank_add_eq_size : (tree.add parent content).rank tree.size = slim.size := by
  rw [condenses.size]
  exact rank_of_kept (content_add_of_lt content) (Nat.le_refl _)

/-- A node that is added to both trees holds its content in both, and so does every earlier one. -/
theorem content_keep {id : NodeId} (inside : id < tree.size + 1)
    (counted : (tree.add parent content).view.isSignificant id) :
    (slim.add (tree.rank parent) content).content ((tree.add parent content).rank id) =
      (tree.add parent content).content id := by
  rcases Nat.lt_succ_iff_lt_or_eq.mp inside with old | rfl
  · obtain ⟨countedBefore, rank, -⟩ := condenses.earlier_add content old counted
    rw [rank, content_add_of_lt content _ (condenses.rank_lt old countedBefore),
      content_add_of_lt content id old, condenses.content id old countedBefore]
  · rw [condenses.rank_add_eq_size content, content_add, if_pos rfl, content_add, if_pos rfl]

variable (known : parent < tree.size)

include known

/-- A node that is added to both trees has its parent in both, and so has every earlier one. -/
theorem parent_keep {id : NodeId} (inside : id < tree.size + 1)
    (counted : (tree.add parent content).view.isSignificant id) :
    (slim.add (tree.rank parent) content).parent ((tree.add parent content).rank id) =
      ((tree.add parent content).parent id).map (tree.add parent content).rank := by
  rcases Nat.lt_succ_iff_lt_or_eq.mp inside with old | rfl
  · obtain ⟨countedBefore, rank, above⟩ := condenses.earlier_add content old counted
    rw [rank, above, parent_add, if_neg (Nat.ne_of_lt (condenses.rank_lt old countedBefore)),
      condenses.parent id old countedBefore]
  · have same : (tree.add parent content).rank parent = tree.rank parent :=
      rank_of_kept (content_add_of_lt content) (Nat.le_of_lt known)
    rw [condenses.rank_add_eq_size content, parent_add, if_pos rfl, parent_add, if_pos rfl,
      Option.map_some, same]

variable (counts : tree.view.isSignificant parent)

include counts

/-- Adding a node below one that counts leaves what counts for nothing without children. -/
theorem bare_add (id : NodeId) (blank : ¬(tree.add parent content).view.isSignificant id) :
    (tree.add parent content).children id = [] := by
  by_cases old : id < tree.size
  · rw [isSignificant_of_kept (content_add_of_lt content) old] at blank
    have apart : id ≠ parent := by
      rintro rfl
      exact blank counts
    rw [children_add known, if_neg apart, condenses.bare id blank]
  · have apart : id ≠ parent := fun same => old (same ▸ known)
    rw [children_add known, if_neg apart, children_of_le (Nat.le_of_not_lt old)]

/-- Adding what is no content changes nothing of what counts. -/
theorem skip (blank : ¬content.isSignificant) : slim.Condenses (tree.add parent content) := by
  have earlier : ∀ id < (tree.add parent content).size,
      (tree.add parent content).view.isSignificant id → id < tree.size := by
    intro id inside counted
    rw [size_add] at inside
    rcases Nat.lt_succ_iff_lt_or_eq.mp inside with old | rfl
    · exact old
    · rw [isSignificant_add_size] at counted
      exact absurd counted blank
  refine ⟨condenses.forest.add content known, condenses.bare_add content known counts, ?_, ?_, ?_,
    ?_⟩
  · rw [size_add, rank_add_size, if_neg blank, condenses.size, Nat.add_zero]
  all_goals
    intro id inside counted
    have old := earlier id inside counted
    obtain ⟨countedBefore, rank, above⟩ := condenses.earlier_add content old counted
  · rw [rank, content_add_of_lt content id old, condenses.content id old countedBefore]
  · rw [rank, above, condenses.parent id old countedBefore]
  · rw [rank, condenses.children id old countedBefore, rankedChildren_add content condenses.forest
      known, if_neg fun both => blank both.2, List.append_nil]

/-- A node that is added to both trees is the last child of its parent in both, and every earlier
one has the children that it had. -/
theorem children_keep (significant : content.isSignificant) {id : NodeId}
    (inside : id < tree.size + 1) (counted : (tree.add parent content).view.isSignificant id) :
    (slim.add (tree.rank parent) content).children ((tree.add parent content).rank id) =
      (tree.add parent content).rankedChildren id := by
  have placed := condenses.rank_lt known counts
  rw [rankedChildren_add content condenses.forest known, children_add placed]
  rcases Nat.lt_succ_iff_lt_or_eq.mp inside with old | rfl
  · obtain ⟨countedBefore, rank, -⟩ := condenses.earlier_add content old counted
    rw [rank]
    by_cases here : id = parent
    · subst here
      rw [if_pos rfl, if_pos ⟨rfl, significant⟩, condenses.children id old counts, condenses.size]
    · have apart : tree.rank id ≠ tree.rank parent :=
        fun same => here (Nat.count_injective countedBefore counts same)
      rw [if_neg apart, if_neg fun both => here both.1, condenses.children id old countedBefore,
        List.append_nil]
  · have apart : tree.size ≠ parent := Nat.ne_of_gt known
    rw [condenses.rank_add_eq_size content, if_neg (Nat.ne_of_gt placed),
      if_neg fun both => apart both.1, children_of_le (Nat.le_refl _), rankedChildren,
      children_of_le (Nat.le_refl _)]
    rfl

/-- Adding content to both trees, below a node and below its rank, keeps the second tree what counts
in the first. -/
theorem keep (significant : content.isSignificant) :
    (slim.add (tree.rank parent) content).Condenses (tree.add parent content) where
  forest := condenses.forest.add content known
  bare := condenses.bare_add content known counts
  size := by rw [size_add, size_add, rank_add_size, if_pos significant, condenses.size]
  content id inside := condenses.content_keep content (by simpa using inside)
  parent id inside := condenses.parent_keep content known (by simpa using inside)
  children id inside :=
    condenses.children_keep content known counts significant (by simpa using inside)

end Add

end Condenses

/-- Attaching documents keeps what earlier nodes hold. -/
theorem content_attachAll {tree grown : Tree} {parent : NodeId} {depth : Nat}
    {documents : List Document} (known : parent < tree.size)
    (attached : tree.attachAll parent depth documents = .ok grown) :
    tree.size ≤ grown.size ∧ ∀ id < tree.size, grown.content id = tree.content id := by
  have step : ∀ (middle : Tree) (parent : NodeId) (content : Content),
      (tree.size ≤ middle.size ∧ ∀ id < tree.size, middle.content id = tree.content id) →
      parent < middle.size → content ≠ .document →
      tree.size ≤ (middle.add parent content).size ∧
        ∀ id < tree.size, (middle.add parent content).content id = tree.content id := by
    intro middle parent content ⟨larger, kept⟩ _ _
    refine ⟨by rw [size_add]; omega, fun id old => ?_⟩
    rw [content_add_of_lt content id (Nat.lt_of_lt_of_le old larger), kept id old]
  exact (attachAll_keeps step documents known ⟨Nat.le_refl _, fun _ _ => rfl⟩ attached).1

/-- Attaching documents to a new node keeps what earlier nodes hold. -/
theorem content_attachAll_add {tree middle : Tree} {parent : NodeId} {depth : Nat}
    {content : Content} {inner : List Document}
    (attached : (tree.add parent content).attachAll tree.size depth inner = .ok middle) :
    tree.size < middle.size ∧ ∀ id < tree.size, middle.content id = tree.content id := by
  have newKnown : tree.size < (tree.add parent content).size := by simp
  obtain ⟨larger, kept⟩ := content_attachAll newKnown attached
  refine ⟨Nat.lt_of_lt_of_le newKnown larger, fun id old => ?_⟩
  rw [kept id (Nat.lt_trans old newKnown), content_add_of_lt content id old]

/-- When documents can be attached to a node that counts, what is left of them can be attached to
its rank, and the second tree stays what counts in the first. -/
theorem Condenses.exists_attachAll (documents : List Document) {slim tree grown : Tree}
    (condenses : slim.Condenses tree) {parent : NodeId} (known : parent < tree.size)
    (counts : tree.view.isSignificant parent) {depth : Nat}
    (attached : tree.attachAll parent depth documents = .ok grown) :
    ∃ slender, slim.attachAll (tree.rank parent) depth (Document.condensedAll documents) =
      .ok slender ∧ slender.Condenses grown := by
  induction documents using Document.list_induction generalizing slim tree grown parent depth with
  | nil =>
    cases attached
    exact ⟨slim, rfl, condenses⟩
  | document inner later _ _ =>
    rw [attachAll, attach] at attached
    cases attached
  | part content inner later holds below behind =>
    obtain ⟨middle, first, second⟩ := exists_middle holds attached
    obtain ⟨larger, kept⟩ := content_attachAll_add first
    have stillKnown : parent < middle.size := Nat.lt_trans known larger
    have stillCounts : middle.view.isSignificant parent := by
      rw [isSignificant_of_kept kept known]
      exact counts
    have sameRank := rank_of_kept kept (Nat.le_of_lt known)
    rw [Document.condensedAll_holding holds]
    by_cases significant : content.isSignificant
    · have newCounts : (tree.add parent content).view.isSignificant tree.size := by
        rw [isSignificant_add_size]
        exact significant
      obtain ⟨slimmer, firstSlim, inside⟩ :=
        below (condenses.keep content known counts significant) (by simp) newCounts first
      obtain ⟨slender, secondSlim, after⟩ := behind inside stillKnown stillCounts second
      rw [condenses.rank_add_eq_size content] at firstSlim
      rw [sameRank] at secondSlim
      refine ⟨slender, ?_, after⟩
      rw [if_pos significant, attachAll_holding slim _ depth (Document.canHold_condensedAll holds),
        firstSlim]
      exact secondSlim
    · obtain rfl := Document.eq_nil_of_not_isSignificant holds significant
      cases first
      rw [if_neg significant, ← sameRank]
      exact behind (condenses.skip content known counts significant) stillKnown stillCounts second

/-- A document without a root below its top can be loaded, and so can what is left of it; the
second tree is what counts in the first. -/
theorem exists_condensed (children : List Document) (noRoot : Document.areParts children) :
    ∃ tree slim, ofDocument (.document children) = .ok tree ∧
      ofDocument (Document.document children).condensed = .ok slim ∧ slim.Condenses tree := by
  obtain ⟨tree, _, loaded, -⟩ := exists_attached children noRoot Forest.empty.root_lt 1
  obtain ⟨slim, loadedSlim, condenses⟩ :=
    Condenses.empty.exists_attachAll children Forest.empty.root_lt rfl loaded
  exact ⟨tree, slim, loaded, loadedSlim, condenses⟩

/-- What counts is outlined, under its ranks, in the tree that holds it alone. -/
def Condenses.outline {slim tree : Tree} (condenses : slim.Condenses tree) :
    tree.view.condensed.Outline slim.view where
  nodes := {id | id < tree.size ∧ tree.view.isSignificant id}
  place := tree.rank
  injective _ known _ otherKnown same := Nat.count_injective known.2 otherKnown.2 same
  root_mem := ⟨condenses.forest.root_lt, isSignificant_eq condenses.forest.rootContent⟩
  root := Nat.count_zero _
  kind id known := by
    change slim.view.kind (tree.rank id) = tree.view.kind id
    simp only [view, condenses.content id known.1 known.2]
  tagName id known := by
    change slim.view.tagName (tree.rank id) = tree.view.tagName id
    simp only [view, condenses.content id known.1 known.2]
  attributeOf id known := by
    change slim.view.attributeOf (tree.rank id) = tree.view.attributeOf id
    simp only [view, condenses.content id known.1 known.2]
  text id known holds := by
    have shown : tree.view.condensed.text id = tree.view.text id := if_pos holds
    rw [shown]
    simp only [view, condenses.content id known.1 known.2]
  parent := by
    refine ⟨fun {id parent} _ leads => ⟨condenses.forest.parent_lt leads, ?_⟩, fun {id} known =>
      condenses.parent id known.1 known.2⟩
    exact condenses.forest.isSignificant_parent condenses.bare leads
  children_mem id known child listed :=
    ⟨condenses.forest.lt_of_mem_children (List.mem_filter.mp listed).1,
      (List.mem_filter.mp listed).2⟩
  children id known := condenses.children id known.1 known.2

end TreeQuery.Tree
