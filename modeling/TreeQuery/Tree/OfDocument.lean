import TreeQuery.Document.OfJson
import TreeQuery.Tree

/-!
# Trees of documents

The tree of a document has the document's nodes in document order under a root of its own: what is
below a root of the document is below that root, and any other document is its only child. A root
further down is an error that tells how far down it is; the first one in document order counts.
-/
namespace TreeQuery.Tree

mutual

/-- Adds a document at a depth under a node. -/
def attach (tree : Tree) (parent : NodeId) (depth : Nat) : Document → Except DocumentError Tree
  | .document _ => .error (.nested depth)
  | .element tag attributes children =>
    (tree.add parent (.element tag attributes)).attachAll tree.size (depth + 1) children
  | .text data => .ok (tree.add parent (.text data))
  | .comment data => .ok (tree.add parent (.comment data))

/-- Adds documents at a depth under a node, in order. -/
def attachAll (tree : Tree) (parent : NodeId) (depth : Nat) :
    List Document → Except DocumentError Tree
  | [] => .ok tree
  | document :: later => do
    let grown ← tree.attach parent depth document
    grown.attachAll parent depth later

end

/-- The tree of a document. -/
def ofDocument : Document → Except DocumentError Tree
  | .document children => empty.attachAll root 1 children
  | part => empty.attach root 0 part

/-- The tree of the document that a text writes in JSON. -/
def ofText (text : String) : Except DocumentError Tree :=
  match Document.ofText? text with
  | none => .error .malformed
  | some document => ofDocument document

end TreeQuery.Tree
