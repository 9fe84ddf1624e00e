import TreeQuery.Text.Basic
import TreeQuery.TreeView

/-!
# Hosts of queries

The part of a token that a search can look for is its tag, its id and its classes. Only elements
pass a filter. A tag is compared without case, an id is the whole value of the attribute `id`, and
every class of the filter is a word of the attribute `class`. A host is a tree that queries run on,
with its own way of finding every node that passes a filter. Whatever way that is, it finds the
nodes below the scope that pass, in document order.
-/
namespace TreeQuery

/-- What a filter asks of a tag. -/
inductive TagTest where
  /-- Any tag will do. -/
  | any
  /-- The tag has this name. -/
  | named (name : String)
  deriving DecidableEq, Repr

/-- Whether a tag is what a filter asks for. -/
def TagTest.accepts : TagTest → String → Bool
  | any, _ => true
  | named name, tag => Text.sameLetters name.toList tag.toList

/-- A test of the tag, the id and the classes of an element. -/
structure Filter where
  /-- What is asked of the tag. -/
  tag : TagTest := .any
  /-- The id, if one is asked for. -/
  id : Option String := none
  /-- The classes asked for. -/
  classes : List String := []
  deriving DecidableEq, Repr

/-- Whether a node passes a filter. -/
def Filter.accepts {ν : Type} (filter : Filter) (view : TreeView ν) (node : ν) : Bool :=
  view.kind node == .element &&
    (view.tagName node).any filter.tag.accepts &&
    filter.id.all (fun id => view.attributeOf node "id" == some id) &&
    filter.classes.all (view.attributeWords node "class").contains

namespace TreeView

variable {ν : Type}

/-- The nearest ancestor of a node that passes a filter. -/
def nearestAncestor (view : TreeView ν) (node : ν) (filter : Filter) : Option ν :=
  (view.ancestors node).find? (filter.accepts view)

/-- The nearest sibling before a node that passes a filter. -/
def nearestPreceding (view : TreeView ν) (node : ν) (filter : Filter) : Option ν :=
  (view.preceding node).find? (filter.accepts view)

/-- Every node below a scope that passes a filter, in document order. -/
def allBelow (view : TreeView ν) (scope : ν) (filter : Filter) : List ν :=
  Walk.search view.children (filter.accepts view) (Walk.opened view.children view.size scope)

/-- Searching on the way finds what filtering the nodes below the scope finds. -/
theorem allBelow_eq_filter (view : TreeView ν) (scope : ν) (filter : Filter) :
    view.allBelow scope filter = (view.descendants scope).filter (filter.accepts view) :=
  Walk.search_eq_filter _ _ _

end TreeView

/-- A tree with a search of its own. -/
structure Host (ν : Type) extends TreeView ν where
  /-- Every node below a scope that passes a filter. -/
  search : ν → Filter → List ν
  /-- The search filters the nodes below the scope. -/
  search_eq_filter : ∀ scope filter,
    search scope filter = (toTreeView.descendants scope).filter (filter.accepts toTreeView)

/-- A tree as a host that filters on the way down. -/
def TreeView.host {ν : Type} (view : TreeView ν) : Host ν where
  toTreeView := view
  search := view.allBelow
  search_eq_filter := view.allBelow_eq_filter

end TreeQuery
