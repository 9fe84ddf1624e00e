import TreeQuery.Attributes

/-!
# Documents

A document is a nested value: elements with attributes and children, texts and comments, under a
root. A part of a document is a document too, so a tree can be made of an element alone; a root
below the top is not allowed in a tree, and `DocumentError` says so.
-/
namespace TreeQuery

/-- A document, or a part of one. -/
inductive Document where
  /-- A root with what is below it. -/
  | document (children : List Document)
  /-- An element with what is below it. -/
  | element (tag : String) (attributes : Attributes) (children : List Document)
  /-- Character data. -/
  | text (data : String)
  /-- A comment. -/
  | comment (data : String)
  deriving Repr

/-- Why a text gives no tree. -/
inductive DocumentError where
  /-- The text is not a document written in JSON. -/
  | malformed
  /-- There is a root below the top, this many steps down. -/
  | nested (depth : Nat)
  deriving DecidableEq, Repr

/-- What is wrong, from the whole to its reason. Why a text is not a document is worded by the
reader of JSON, with the place in the text; the words `no document` stand for its own here. -/
def DocumentError.causes : DocumentError → List String
  | malformed => ["invalid document JSON: no document", "no document"]
  | nested depth => ["nested document node at depth " ++ toString depth]

/-- What the error says to a reader. -/
def DocumentError.message (error : DocumentError) : String := error.causes.headD ""

end TreeQuery
