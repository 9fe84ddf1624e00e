import TreeQuery.Document
import TreeQuery.Json.Value

/-!
# Documents in JSON

A document is written as an object whose entry `type` tells what it is, with an entry for each of
its parts, or as an array of the type and the parts in a fixed order. Entries of other names do not
count. A part is given at most once; attributes and children may be left out when there are none.
Below the top a type may also be written as its number.
-/
namespace TreeQuery

/-- What a document is. -/
inductive DocumentType where
  /-- A root. -/
  | document
  /-- An element. -/
  | element
  /-- Character data. -/
  | text
  /-- A comment. -/
  | comment
  deriving DecidableEq, Repr

namespace DocumentType

/-- The name of a type. -/
def name : DocumentType → String
  | document => "document"
  | element => "element"
  | text => "text"
  | comment => "comment"

/-- The type with a name. -/
def ofName? : String → Option DocumentType
  | "document" => some document
  | "element" => some element
  | "text" => some text
  | "comment" => some comment
  | _ => none

/-- The type with a number. -/
def ofNumber? : Json.Number → Option DocumentType
  | ⟨false, ['0'], none, none⟩ => some document
  | ⟨false, ['1'], none, none⟩ => some element
  | ⟨false, ['2'], none, none⟩ => some text
  | ⟨false, ['3'], none, none⟩ => some comment
  | _ => none

/-- Reads a type, below the top or not. -/
def ofJson? (nested : Bool) : Json.Value → Option DocumentType
  | .string name => ofName? name
  | .number number => if nested then ofNumber? number else none
  | _ => none

/-- Each type is read back from its name. -/
@[simp] theorem ofName?_name (type : DocumentType) : ofName? type.name = some type := by
  cases type <;> rfl

end DocumentType

namespace Document

/-- A string. -/
def stringOf? : Json.Value → Option String
  | .string value => some value
  | _ => none

/-- An attribute, whose value is a string. -/
def attributeOf? (entry : String × Json.Value) : Option (String × String) :=
  (stringOf? entry.2).map (entry.1, ·)

/-- Attributes, written as an object of strings; a name given again overrules the earlier entry. -/
def attributesOf? : Json.Value → Option Attributes
  | .object entries => (entries.mapM attributeOf?).map Attributes.ofPairs
  | _ => none

/-- The value of a name that is given at most once, if it is given. -/
def field? {α : Type} (name : String) (entries : List (String × α)) : Option (Option α) :=
  match entries.filter fun entry => entry.1 == name with
  | [] => some none
  | [(_, value)] => some (some value)
  | _ => none

/-- The value of a name that is given exactly once. -/
def required? {α : Type} (name : String) (entries : List (String × α)) : Option α :=
  (field? name entries).bind id

/-- A part that may be left out. -/
def orDefault {α : Type} (default : α) : Option (Option α) → Option α
  | none => some default
  | some part => part

/-- Reads the entries of an object. With each name comes its value, and the documents that it is
an array of, if it is one. -/
def ofEntries? (nested : Bool) (entries : List (String × Json.Value))
    (lists : List (String × Option (List Document))) : Option Document := do
  let type ← DocumentType.ofJson? nested (← required? "type" entries)
  match type with
  | .document =>
    let children ← orDefault [] (← field? "children" lists)
    some (.document children)
  | .element =>
    let tag ← stringOf? (← required? "tagName" entries)
    let attributes ← orDefault .empty ((← field? "attributes" entries).map attributesOf?)
    let children ← orDefault [] (← field? "children" lists)
    some (.element tag attributes children)
  | .text => (stringOf? (← required? "content" entries)).map .text
  | .comment => (stringOf? (← required? "content" entries)).map .comment

/-- Reads the items of an array behind the type. With each item come the documents that it is an
array of, if it is one. -/
def ofParts? (type : DocumentType) (parts : List (Json.Value × Option (List Document))) :
    Option Document :=
  match type, parts with
  | .document, [] => some (.document [])
  | .document, [(_, children)] => children.map .document
  | .element, [(tag, _)] => do some (.element (← stringOf? tag) .empty [])
  | .element, [(tag, _), (attributes, _)] => do
    some (.element (← stringOf? tag) (← attributesOf? attributes) [])
  | .element, [(tag, _), (attributes, _), (_, children)] => do
    some (.element (← stringOf? tag) (← attributesOf? attributes) (← children))
  | .text, [(content, _)] => (stringOf? content).map .text
  | .comment, [(content, _)] => (stringOf? content).map .comment
  | _, _ => none

/-- Reads the items of an array. -/
def ofItems? (nested : Bool) : List (Json.Value × Option (List Document)) → Option Document
  | [] => none
  | (type, _) :: parts => (DocumentType.ofJson? nested type).bind fun type => ofParts? type parts

mutual

/-- Reads a document, below the top or not. -/
def ofValue? (nested : Bool) : Json.Value → Option Document
  | .object entries => ofEntries? nested entries (listsOfEntries entries)
  | .array items => ofItems? nested (items.zip (listsOfItems items))
  | _ => none

/-- The documents that a value is an array of, if it is one. -/
def listOf? : Json.Value → Option (List Document)
  | .array items => allOf? items
  | _ => none

/-- Reads documents below the top. -/
def allOf? : List Json.Value → Option (List Document)
  | [] => some []
  | item :: rest => do some ((← ofValue? true item) :: (← allOf? rest))

/-- Reads each entry as an array of documents. -/
def listsOfEntries : List (String × Json.Value) → List (String × Option (List Document))
  | [] => []
  | (name, value) :: rest => (name, listOf? value) :: listsOfEntries rest

/-- Reads each item as an array of documents. -/
def listsOfItems : List Json.Value → List (Option (List Document))
  | [] => []
  | item :: rest => listOf? item :: listsOfItems rest

end

/-- The document that a JSON value writes. -/
def ofJson? (value : Json.Value) : Option Document := ofValue? false value

/-- The document that a text writes in JSON. -/
def ofText? (text : String) : Option Document := (Json.Value.ofText? text).bind ofJson?

/-- Attributes as an object. -/
def attributesToJson (attributes : Attributes) : Json.Value :=
  .object (attributes.entries.map fun entry => (entry.1, .string entry.2))

mutual

/-- A document as a JSON value, with every part written. -/
def toJson : Document → Json.Value
  | document children =>
    .object [("type", .string DocumentType.document.name), ("children", .array (allToJson children))]
  | element tag attributes children =>
    .object [("type", .string DocumentType.element.name), ("tagName", .string tag),
      ("attributes", attributesToJson attributes), ("children", .array (allToJson children))]
  | text data => .object [("type", .string DocumentType.text.name), ("content", .string data)]
  | comment data => .object [("type", .string DocumentType.comment.name), ("content", .string data)]

/-- Documents as JSON values. -/
def allToJson : List Document → List Json.Value
  | [] => []
  | first :: rest => first.toJson :: allToJson rest

end

/-- A document as JSON text. -/
def toText (document : Document) : String := document.toJson.toText

end Document

end TreeQuery
