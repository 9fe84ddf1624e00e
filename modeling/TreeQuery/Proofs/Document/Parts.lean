import TreeQuery.Document
import TreeQuery.Tree
/-!
# Parts of documents

The nodes of a document other than roots are its parts. A part is a content holding the documents
below it, and only an element holds any (`Content.CanHold`). What stands below the root of the tree
of a document are the parts below its own root, or the document itself when it is none. Lists of
documents are taken apart from the front, the first into what is below it: by the content it is
(`Document.list_induction`), or only as the documents it holds (`Document.inner_induction`).
-/
namespace TreeQuery

/-- The document that a content holding some documents is. -/
def Content.holding : Content → List Document → Document
  | document, inner => .document inner
  | element tag attributes, inner => .element tag attributes inner
  | text data, _ => .text data
  | comment data, _ => .comment data

/-- Which documents the content of a part can hold. -/
inductive Content.CanHold : Content → List Document → Prop
  /-- An element holds any documents. -/
  | element {tag : String} {attributes : Attributes} {inner : List Document} :
    CanHold (.element tag attributes) inner
  /-- A text holds none. -/
  | text {data : String} : CanHold (.text data) []
  /-- A comment holds none. -/
  | comment {data : String} : CanHold (.comment data) []

/-- A part is no root. -/
theorem Content.CanHold.ne_document {content : Content} {inner : List Document}
    (holds : content.CanHold inner) : content ≠ .document := by
  cases holds <;> exact nofun

namespace Document

/-- The documents that stand below the root of the tree of a document. -/
def parts : Document → List Document
  | document children => children
  | part => [part]

/-- How far the top of the document is above those: one step when it is a root. -/
def partsDepth : Document → Nat
  | document _ => 1
  | _ => 0

mutual

/-- Whether there is no root in a document, at its top or below. -/
def isPart : Document → Bool
  | document _ => false
  | element _ _ children => areParts children
  | text _ => true
  | comment _ => true

/-- Whether there is no root in any of some documents. -/
def areParts : List Document → Bool
  | [] => true
  | first :: later => first.isPart && areParts later

end

mutual

/-- How many nodes a document has, roots not counted. -/
def count : Document → Nat
  | document children => countAll children
  | element _ _ children => countAll children + 1
  | text _ => 1
  | comment _ => 1

/-- How many nodes some documents have, roots not counted. -/
def countAll : List Document → Nat
  | [] => 0
  | first :: later => first.count + countAll later

end

/-- The parts below the root of the tree have the nodes of the document. -/
theorem countAll_parts (document : Document) : countAll document.parts = document.count := by
  cases document <;> simp [parts, countAll, count]

/-- A part has one node more than the documents that it holds. -/
theorem count_holding {content : Content} {inner : List Document}
    (holds : content.CanHold inner) : (content.holding inner).count = countAll inner + 1 := by
  cases holds <;> simp [Content.holding, count, countAll]

/-- A part has no root in it when there is none among the documents that it holds. -/
theorem isPart_holding {content : Content} {inner : List Document}
    (holds : content.CanHold inner) : (content.holding inner).isPart = areParts inner := by
  cases holds <;> simp [Content.holding, isPart, areParts]

/-- What holds of no documents, and of some documents when it holds of those below the first and of
those after it, holds of any documents. -/
@[elab_as_elim]
theorem list_induction {motive : List Document → Prop} (nil : motive [])
    (document : ∀ inner later, motive inner → motive later → motive (document inner :: later))
    (part : ∀ (content : Content) inner later, content.CanHold inner → motive inner →
      motive later → motive (content.holding inner :: later))
    (documents : List Document) : motive documents := by
  refine @Document.rec_1 (fun first => ∀ later, motive later → motive (first :: later)) motive
    ?document ?element ?text ?comment nil (fun _ _ front after => front _ after) documents
  case document => exact fun inner below later after => document inner later below after
  case element =>
    exact fun tag attributes inner below later after =>
      part (.element tag attributes) inner later .element below after
  case text => exact fun data later after => part (.text data) [] later .text nil after
  case comment => exact fun data later after => part (.comment data) [] later .comment nil after

/-- The documents just below a document. -/
def inner : Document → List Document
  | document children => children
  | element _ _ children => children
  | text _ => []
  | comment _ => []

/-- What a content holds is just below it. -/
theorem inner_holding {content : Content} {documents : List Document}
    (holds : content.CanHold documents) : (content.holding documents).inner = documents := by
  cases holds <;> rfl

/-- What holds of no documents, and of some documents when it holds of those just below the first
and of those after it, holds of any documents. -/
@[elab_as_elim]
theorem inner_induction {motive : List Document → Prop} (nil : motive [])
    (cons : ∀ first later, motive first.inner → motive later → motive (first :: later))
    (documents : List Document) : motive documents := by
  induction documents using Document.list_induction with
  | nil => exact nil
  | document inner later below behind => exact cons _ _ below behind
  | part content inner later holds below behind =>
    refine cons _ _ ?_ behind
    rw [inner_holding holds]
    exact below

end Document

end TreeQuery
