import TreeQuery.Proofs.Document.Parts
import TreeQuery.Text.Basic
/-!
# Documents without what is no content

Comments are no content, and neither are texts without a character to see. A document is condensed
when they are taken out of it wherever they stand (`Document.condensed`); an element stays, whatever
it holds.
-/
namespace TreeQuery

/-- Whether what a node holds counts as content. -/
def Content.isSignificant : Content → Bool
  | document => true
  | element _ _ => true
  | text data => !data.toList.all Text.isBlank
  | comment _ => false

namespace Document

/-- Whether a document counts as content where it stands. -/
def isSignificant : Document → Bool
  | document _ => true
  | element _ _ _ => true
  | text data => !data.toList.all Text.isBlank
  | comment _ => false

mutual

/-- A document without the comments and blank texts below it. -/
def condensed : Document → Document
  | document children => .document (condensedAll children)
  | element tag attributes children => .element tag attributes (condensedAll children)
  | text data => .text data
  | comment data => .comment data

/-- Documents without the comments and blank texts among them and below them. -/
def condensedAll : List Document → List Document
  | [] => []
  | first :: later =>
    if first.isSignificant then first.condensed :: condensedAll later else condensedAll later

end

/-- Documents are condensed from the front: a content is left with what is left of what it holds. -/
theorem condensedAll_holding {content : Content} {inner : List Document}
    (holds : content.CanHold inner) (later : List Document) :
    condensedAll (content.holding inner :: later) =
      if content.isSignificant then content.holding (condensedAll inner) :: condensedAll later
      else condensedAll later := by
  cases holds <;> rw [condensedAll] <;> rfl

/-- What is left of the documents that a content holds, it can hold. -/
theorem canHold_condensedAll {content : Content} {inner : List Document}
    (holds : content.CanHold inner) : content.CanHold (condensedAll inner) := by
  cases holds with
  | element => exact .element
  | text => exact .text
  | comment => exact .comment

/-- A content that counts for nothing holds nothing. -/
theorem eq_nil_of_not_isSignificant {content : Content} {inner : List Document}
    (holds : content.CanHold inner) (blank : ¬content.isSignificant) : inner = [] := by
  cases holds with
  | element => exact absurd rfl blank
  | text => rfl
  | comment => rfl

end Document

end TreeQuery
