import TreeQuery.Text.Basic
import TreeQuery.TreeView

/-!
# Positions among siblings

Blank text and comments are no content. The position of a node counts the content from the first
sibling up to the node, and a node is first or last when no content stands before or after it.
-/
namespace TreeQuery.TreeView

variable {ν : Type}

/-- Whether a node is a comment or text without a character to see. -/
def isInsignificant (view : TreeView ν) (node : ν) : Bool :=
  match view.kind node with
  | .comment => true
  | .text =>
    match view.text node with
    | none => true
    | some text => text.toList.all Text.isBlank
  | .document => false
  | .element => false

/-- Whether a node is content. -/
def isSignificant (view : TreeView ν) (node : ν) : Bool := !view.isInsignificant node

/-- Whether no content stands before a node. -/
def isFirst (view : TreeView ν) (node : ν) : Bool :=
  (view.preceding node).all view.isInsignificant

/-- Whether no content stands after a node. -/
def isLast (view : TreeView ν) (node : ν) : Bool :=
  (view.following node).all view.isInsignificant

/-- The number of a node among its content siblings, counted from one: the content before it, and
one more when it is content itself. -/
def position (view : TreeView ν) (node : ν) : Nat :=
  (view.preceding node).countP view.isSignificant + if view.isSignificant node then 1 else 0

/-- A node that is content has a number from one on. -/
theorem one_le_position {view : TreeView ν} {node : ν} (content : view.isSignificant node) :
    1 ≤ view.position node := by
  simp [position, content]

/-- First are the nodes with the least number: one for content, zero for what is none. -/
theorem isFirst_iff (view : TreeView ν) (node : ν) :
    view.isFirst node ↔
      view.position node = if view.isSignificant node then 1 else 0 := by
  simp [isFirst, position, isSignificant, List.countP_eq_zero]

end TreeQuery.TreeView
