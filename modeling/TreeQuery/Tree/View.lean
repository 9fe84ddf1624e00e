import TreeQuery.Host
import TreeQuery.Tree

/-!
# Trees as hosts of queries

Walks follow the links of a tree; the number of its nodes bounds them, and a walk in a tree whose
links do not lead in circles stays within that bound. A tree is seen by a query through its nodes:
the tag and the attributes of elements, the data of texts and comments, and every link. A tree finds
the nodes that pass a filter by listing what is below the scope and filtering the list.
-/
namespace TreeQuery

/-- The kind of a node with a content. -/
def Content.kind : Content → Kind
  | document => .document
  | element _ _ => .element
  | text _ => .text
  | comment _ => .comment

/-- The tag of an element. -/
def Content.tag? : Content → Option String
  | element tag _ => some tag
  | _ => none

/-- The attributes of an element. -/
def Content.attributes? : Content → Option Attributes
  | element _ attributes => some attributes
  | _ => none

/-- The data of a text or a comment. -/
def Content.data? : Content → Option String
  | text data => some data
  | comment data => some data
  | _ => none

namespace Tree

/-- The ancestors of a node, its parent first. -/
def ancestors (tree : Tree) (id : NodeId) : List NodeId := Walk.chain tree.parent tree.size id

/-- The siblings before a node, the nearest first. -/
def preceding (tree : Tree) (id : NodeId) : List NodeId := Walk.chain tree.previous tree.size id

/-- The siblings after a node, the nearest first. -/
def following (tree : Tree) (id : NodeId) : List NodeId := Walk.chain tree.next tree.size id

/-- The nodes below a node, in document order, once for each way down to them. -/
def descendants (tree : Tree) (id : NodeId) : List NodeId :=
  Walk.visit tree.children (Walk.opened tree.children tree.size id)

/-- Whether a node is among the ancestors of another. -/
def isDescendant (tree : Tree) (descendant ancestor : NodeId) : Bool :=
  (tree.ancestors descendant).contains ancestor

/-- Whether a node is an element. -/
def isElement (tree : Tree) (id : NodeId) : Bool :=
  match tree.content id with
  | some (.element _ _) => true
  | _ => false

/-- The first element directly below the root. -/
def documentElement (tree : Tree) : Option NodeId := (tree.children root).find? tree.isElement

/-- A number that no node has, has no links. -/
theorem lt_size_of_linked {tree : Tree} {id : NodeId}
    (linked : tree.parent id ≠ none ∨ tree.previous id ≠ none ∨ tree.next id ≠ none ∨
      tree.children id ≠ []) : id < tree.size := by
  refine get?_ne_none_iff.mp fun missing => ?_
  simp [parent, previous, next, children, missing] at linked

/-- A tree as a query sees it. A number that no node has counts as a document. -/
def view (tree : Tree) : TreeView NodeId where
  root := root
  kind id := ((tree.content id).map Content.kind).getD .document
  tagName id := (tree.content id).bind Content.tag?
  attributeOf id name :=
    ((tree.content id).bind Content.attributes?).bind fun attributes => attributes.get? name
  text id := (tree.content id).bind Content.data?
  parent := tree.parent
  previous := tree.previous
  next := tree.next
  children := tree.children
  size := tree.size
  bounded := ⟨List.range tree.size, Nat.le_of_eq List.length_range, fun _ linked =>
    List.mem_range.mpr (lt_size_of_linked linked)⟩

/-- A tree with its own search. -/
def host (tree : Tree) : Host NodeId where
  toTreeView := tree.view
  search scope filter := (tree.descendants scope).filter (filter.accepts tree.view)
  search_eq_filter _ _ := rfl

end Tree

end TreeQuery
