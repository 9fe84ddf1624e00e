import TreeQuery.Text.Basic
import TreeQuery.Walk

/-!
# What a query sees of a tree

A query runs on any tree that says, for each of its nodes, what kind of node it is, what its tag,
attributes and text are, and where its links lead. Nodes are named by values of any type; a node
that does not exist has no links. Only finitely many nodes have links, and `size` bounds their
number: that is the bound of every walk here.
-/
namespace TreeQuery

/-- The kind of a node. -/
inductive Kind where
  /-- The root of a document. -/
  | document
  /-- An element with a tag and attributes. -/
  | element
  /-- Character data. -/
  | text
  /-- A comment. -/
  | comment
  deriving DecidableEq, Repr

/-- A tree as a query sees it. -/
structure TreeView (ν : Type) where
  /-- The node below which a query looks. -/
  root : ν
  /-- The kind of a node. -/
  kind : ν → Kind
  /-- The tag of an element. -/
  tagName : ν → Option String
  /-- The value of an attribute of an element. -/
  attributeOf : ν → String → Option String
  /-- The data of a text or a comment. -/
  text : ν → Option String
  /-- The parent of a node. -/
  parent : ν → Option ν
  /-- The sibling just before a node. -/
  previous : ν → Option ν
  /-- The sibling just after a node. -/
  next : ν → Option ν
  /-- The children of a node in document order. -/
  children : ν → List ν
  /-- A bound on the number of nodes with links. -/
  size : Nat
  /-- No more nodes than that have a link. -/
  bounded : ∃ nodes : List ν, nodes.length ≤ size ∧
    ∀ node, parent node ≠ none ∨ previous node ≠ none ∨ next node ≠ none ∨ children node ≠ [] →
      node ∈ nodes

namespace TreeView

variable {ν : Type}

/-- The ancestors of a node, its parent first. -/
def ancestors (view : TreeView ν) (node : ν) : List ν := Walk.chain view.parent view.size node

/-- The siblings before a node, the nearest first. -/
def preceding (view : TreeView ν) (node : ν) : List ν := Walk.chain view.previous view.size node

/-- The siblings after a node, the nearest first. -/
def following (view : TreeView ν) (node : ν) : List ν := Walk.chain view.next view.size node

/-- The nodes below a node, in document order. -/
def descendants (view : TreeView ν) (node : ν) : List ν :=
  Walk.visit view.children (Walk.opened view.children view.size node)

/-- The words of an attribute of an element, none without the attribute. -/
def attributeWords (view : TreeView ν) (node : ν) (name : String) : List String :=
  match view.attributeOf node name with
  | none => []
  | some value => (Text.words value.toList).map String.ofList

/-- The tree with the data of its texts and comments out of sight. -/
def withoutText (view : TreeView ν) : TreeView ν := { view with text := fun _ => none }

/-- The nodes below a node are listed in document order. -/
theorem descendants_eq_below (view : TreeView ν) (node : ν) :
    view.descendants node = Walk.below view.children view.size node :=
  Walk.visit_opened view.children view.size node

end TreeView

end TreeQuery
