import TreeQuery.Proofs.TreeView.Alike
import TreeQuery.Proofs.Walk.Carried
/-!
# Trees embedded in other trees

A tree is embedded in another when its nodes, from the root on, have places there at which the
other tree shows the same: the same kind, tag, attributes and text, and links to the places of the
nodes that they are linked to (`Embedding`). What a query asks of a node then has the same answer
at its place: filters, attribute tests, positions among siblings, and the nearest ancestor or elder
sibling that passes a filter. The two trees may bound their walks differently; without circles no
bound is reached.
-/
namespace TreeQuery.TreeView

variable {ν μ : Type}

/-- Nodes of a tree, from the root on, with places in another tree that shows the same of them but
for the links between siblings. -/
structure Outline (view : TreeView ν) (other : TreeView μ) where
  /-- The nodes that have places. -/
  nodes : Set ν
  /-- Their places. -/
  place : ν → μ
  /-- No two nodes have the same place. -/
  injective : Set.InjOn place nodes
  /-- The root has a place. -/
  root_mem : view.root ∈ nodes
  /-- The place of the root is the root. -/
  root : place view.root = other.root
  /-- Every node is of the kind that it has at its place. -/
  kind : ∀ node ∈ nodes, other.kind (place node) = view.kind node
  /-- Every node has the tag that it has at its place. -/
  tagName : ∀ node ∈ nodes, other.tagName (place node) = view.tagName node
  /-- Every node has the attributes that it has at its place. -/
  attributeOf : ∀ node ∈ nodes, other.attributeOf (place node) = view.attributeOf node
  /-- Every text has the data that it has at its place. -/
  text : ∀ node ∈ nodes, view.kind node = .text → other.text (place node) = view.text node
  /-- Parents stand at the places of parents. -/
  parent : Walk.Carries nodes place view.parent other.parent
  /-- The children of a node that has a place have places. -/
  children_mem : ∀ node ∈ nodes, ∀ child ∈ view.children node, child ∈ nodes
  /-- Children stand at the places of children, in the same order. -/
  children : ∀ node ∈ nodes, other.children (place node) = (view.children node).map place

/-- An outline in which the links between siblings are the same, too. -/
structure Embedding (view : TreeView ν) (other : TreeView μ) extends Outline view other where
  /-- Elder siblings stand at the places of elder siblings. -/
  previous : Walk.Carries nodes place view.previous other.previous
  /-- Younger siblings stand at the places of younger siblings. -/
  next : Walk.Carries nodes place view.next other.next

namespace Outline

variable {view : TreeView ν} {other : TreeView μ} (outline : view.Outline other) {node : ν}
  (known : node ∈ outline.nodes)

include known

/-- A node and its place show the same. -/
theorem alike : view.Alike node other (outline.place node) :=
  ⟨outline.kind node known, outline.tagName node known, outline.attributeOf node known,
    outline.text node known⟩

omit known in
/-- Some nodes are no content where none of their places is. -/
theorem all_isInsignificant {values : List ν} (allKnown : ∀ node ∈ values, node ∈ outline.nodes) :
    (values.map outline.place).all other.isInsignificant = values.all view.isInsignificant := by
  rw [Bool.eq_iff_iff, List.all_map, List.all_eq_true, List.all_eq_true]
  refine forall₂_congr fun node listed => ?_
  rw [Function.comp_apply, (outline.alike (allKnown node listed)).isInsignificant_eq]

/-- The nodes below the place of a node are the places of the nodes below it, in the same order. -/
theorem descendants_eq (noCircles : view.NoCircles) (noCirclesOther : other.NoCircles) :
    other.descendants (outline.place node) = (view.descendants node).map outline.place := by
  have ordered := (documentOrder_descendants noCircles node).map outline.children_mem
    outline.children (outline.children_mem node known)
  rw [← outline.children node known] at ordered
  exact (documentOrder_descendants noCirclesOther _).unique ordered

/-- The nodes below a node that has a place have places. -/
theorem mem_of_mem_descendants (noCircles : view.NoCircles) :
    ∀ lower ∈ view.descendants node, lower ∈ outline.nodes :=
  (documentOrder_descendants noCircles node).mem_of_closed outline.children_mem
    (outline.children_mem node known)

end Outline

namespace Embedding

variable {view : TreeView ν} {other : TreeView μ} (embedding : view.Embedding other)
  (noCircles : view.NoCircles) (noCirclesOther : other.NoCircles)

include noCircles noCirclesOther

/-- The nearest ancestor that passes a filter stands at the place of the nearest one. -/
theorem nearestAncestor (filter : Filter) : Walk.Carries embedding.nodes embedding.place
    (view.nearestAncestor · filter) (other.nearestAncestor · filter) :=
  embedding.parent.find noCircles.within_parent noCirclesOther.within_parent
    fun _ known => (embedding.alike known).filter_accepts filter

/-- The nearest elder sibling that passes a filter stands at the place of the nearest one. -/
theorem nearestPreceding (filter : Filter) : Walk.Carries embedding.nodes embedding.place
    (view.nearestPreceding · filter) (other.nearestPreceding · filter) :=
  embedding.previous.find noCircles.within_previous noCirclesOther.within_previous
    fun _ known => (embedding.alike known).filter_accepts filter

variable {node : ν} (known : node ∈ embedding.nodes)

include known

/-- The siblings before the place of a node stand at the places of the siblings before it. -/
theorem preceding_eq :
    other.preceding (embedding.place node) = (view.preceding node).map embedding.place :=
  embedding.previous.chain_eq known (noCircles.within_previous node)
    (noCirclesOther.within_previous _)

/-- The siblings after the place of a node stand at the places of the siblings after it. -/
theorem following_eq :
    other.following (embedding.place node) = (view.following node).map embedding.place :=
  embedding.next.chain_eq known (noCircles.within_next node) (noCirclesOther.within_next _)

/-- No content stands before a node where none stands before its place. -/
theorem isFirst_eq : other.isFirst (embedding.place node) = view.isFirst node := by
  rw [isFirst, embedding.preceding_eq noCircles noCirclesOther known]
  exact embedding.all_isInsignificant fun _ => embedding.previous.mem_of_mem_chain known

/-- No content stands after a node where none stands after its place. -/
theorem isLast_eq : other.isLast (embedding.place node) = view.isLast node := by
  rw [isLast, embedding.following_eq noCircles noCirclesOther known]
  exact embedding.all_isInsignificant fun _ => embedding.next.mem_of_mem_chain known

/-- A node has the number among its siblings that its place has. -/
theorem position_eq : other.position (embedding.place node) = view.position node := by
  have alike : ∀ met ∈ embedding.nodes,
      other.isSignificant (embedding.place met) = view.isSignificant met := by
    intro met metKnown
    rw [isSignificant, isSignificant, (embedding.alike metKnown).isInsignificant_eq]
  rw [position, embedding.preceding_eq noCircles noCirclesOther known, alike node known,
    List.countP_map, position]
  congr 1
  exact List.countP_congr fun met listed => by
    rw [Function.comp_apply, alike met (embedding.previous.mem_of_mem_chain known listed)]

/-- The predicates of a compound selector ask the same of a node and of its place. -/
theorem predicatesAccept_eq (compound : Compound) :
    compound.predicatesAccept other (embedding.place node) =
      compound.predicatesAccept view node :=
  (embedding.alike known).predicatesAccept_eq (embedding.isFirst_eq noCircles noCirclesOther known)
    (embedding.position_eq noCircles noCirclesOther known) fun _ =>
      embedding.isLast_eq noCircles noCirclesOther known

/-- A compound selector asks the same of a node and of its place. -/
theorem compound_accepts (compound : Compound) :
    compound.accepts other (embedding.place node) = compound.accepts view node := by
  rw [Compound.accepts, Compound.accepts, (embedding.alike known).filter_accepts,
    embedding.predicatesAccept_eq noCircles noCirclesOther known]

end Embedding

end TreeQuery.TreeView
