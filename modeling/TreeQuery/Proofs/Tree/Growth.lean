import Mathlib.Logic.Relation
import TreeQuery.Tree
/-!
# Trees as they grow

A tree grows from a root alone by edits: a node is made on its own, made and put below another at
once, or put below another later. Which edits are allowed can depend on the tree that they change;
what every allowed edit keeps, every tree grown by them has (`Grown.invariant`).
-/
namespace TreeQuery

/-- What makes a tree grow. -/
inductive Edit where
  /-- Makes a node on its own. -/
  | make (content : Content)
  /-- Makes a node and puts it behind the last child of another. -/
  | insert (parent : NodeId) (content : Content)
  /-- Puts a node behind the last child of another. -/
  | append (parent child : NodeId)
  deriving DecidableEq, Repr

namespace Edit

/-- The tree after an edit. -/
def apply (tree : Tree) : Edit → Tree
  | make content => tree.push content
  | insert parent content => (tree.insert parent content).1
  | append parent child => (tree.append parent child).1

/-- An edit that puts an element, a text or a comment below an existing node as it is made. -/
inductive Builds (tree : Tree) : Edit → Prop
  /-- The parent exists, and what is inserted is no document. -/
  | insert {parent : NodeId} {content : Content} (known : parent < tree.size)
    (part : content ≠ .document) : Builds tree (.insert parent content)

/-- An edit between nodes that exist, whatever parents they have already. -/
inductive Known (tree : Tree) : Edit → Prop
  /-- A node can be made at any time. -/
  | make {content : Content} : Known tree (.make content)
  /-- A node can be inserted below any existing one. -/
  | insert {parent : NodeId} {content : Content} (known : parent < tree.size) :
    Known tree (.insert parent content)
  /-- Any existing node can be put below any existing one, once more if it is there already. -/
  | append {parent child : NodeId} (parentKnown : parent < tree.size)
    (childKnown : child < tree.size) : Known tree (.append parent child)

/-- An edit that gives no node a second parent and puts no node below itself. -/
inductive Fits (tree : Tree) : Edit → Prop
  /-- A node can be made at any time. -/
  | make {content : Content} : Fits tree (.make content)
  /-- A node can be inserted below any existing one. -/
  | insert {parent : NodeId} {content : Content} (known : parent < tree.size) :
    Fits tree (.insert parent content)
  /-- A node other than the root that has no parent can be put below any node that is not the node
  itself and not below it. -/
  | append {parent child : NodeId} (parentKnown : parent < tree.size)
    (childKnown : child < tree.size) (notRoot : child ≠ Tree.root)
    (alone : tree.parent child = none)
    (apart : ¬Relation.ReflTransGen (fun node met => tree.parent node = some met) parent child) :
    Fits tree (.append parent child)

/-- An edit that builds gives no node a second parent. -/
theorem Builds.fits {tree : Tree} {edit : Edit} (builds : Builds tree edit) : Fits tree edit := by
  cases builds with
  | insert known _ => exact .insert known

end Edit

namespace Tree

/-- A tree grown from a root alone by allowed edits. -/
inductive Grown (allowed : Tree → Edit → Prop) : Tree → Prop
  /-- A root alone. -/
  | empty : Grown allowed Tree.empty
  /-- A grown tree after one more edit. -/
  | edit {tree : Tree} {edit : Edit} (grown : Grown allowed tree) (fits : allowed tree edit) :
    Grown allowed (edit.apply tree)

namespace Grown

variable {allowed : Tree → Edit → Prop} {tree : Tree}

/-- What holds of a root alone and is kept by every allowed edit holds of every grown tree. -/
theorem invariant {holds : Tree → Prop} (start : holds Tree.empty)
    (step : ∀ tree edit, holds tree → allowed tree edit → holds (edit.apply tree))
    (grown : tree.Grown allowed) : holds tree := by
  induction grown with
  | empty => exact start
  | edit _ fits ih => exact step _ _ ih fits

/-- A tree grown by some edits is grown by edits that are allowed more freely. -/
theorem mono {freely : Tree → Edit → Prop} (grown : tree.Grown allowed)
    (more : ∀ tree edit, allowed tree edit → freely tree edit) : tree.Grown freely := by
  induction grown with
  | empty => exact .empty
  | edit _ fits ih => exact .edit ih (more _ _ fits)

end Grown

end Tree

end TreeQuery
