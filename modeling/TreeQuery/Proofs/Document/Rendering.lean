import TreeQuery.Document.OfJson
import TreeQuery.Proofs.Document.Parts
import TreeQuery.Proofs.Json.Values
/-!
# Renderings of documents

A document can be written in many ways (`Document.Rendered`): the type and the other fields of an
object come in any order, fields of other names stand among them, attributes come in any order, and
attributes and children may be left out where there are none. Every rendering reads as the document
(`ofValue?_of_rendered`): what is read of an object is what it gives for each name, and neither the
order of its entries nor entries of other names change that (`field?_of_perm`). So a text that
writes a rendering, with any escapes and blanks, gives the document back (`ofText?_rendered`).
-/
namespace TreeQuery.Document

/-- What a document is. -/
def type : Document → DocumentType
  | document _ => .document
  | element _ _ _ => .element
  | text _ => .text
  | comment _ => .comment

/-- The names of the fields of a document besides its type. -/
def fieldNames : Document → List String
  | document _ => ["children"]
  | element _ _ _ => ["tagName", "attributes", "children"]
  | text _ => ["content"]
  | comment _ => ["content"]

/-- The ways to write attributes as a field. -/
inductive AttributesRendered : Attributes → List (String × Json.Value) → Prop
  /-- No attributes may be left out. -/
  | omitted : AttributesRendered .empty []
  /-- Attributes are written as an object, in any order. -/
  | written {attributes : Attributes} {pairs : List (String × String)}
    (order : pairs.Perm attributes.entries) : AttributesRendered attributes
      [("attributes", .object (pairs.map fun pair => (pair.1, .string pair.2)))]

mutual

/-- The ways to write a document as a value. -/
inductive Rendered : Document → Json.Value → Prop
  /-- A document is an object of its type, its fields, and others, in any order. -/
  | object {document : Document} {fields others entries : List (String × Json.Value)}
    (own : FieldsRendered document fields)
    (apart : ∀ entry ∈ others, entry.1 ≠ "type" ∧ entry.1 ∉ document.fieldNames)
    (order : entries.Perm (("type", .string document.type.name) :: fields ++ others)) :
    Rendered document (.object entries)

/-- The ways to write the fields of a document besides its type. -/
inductive FieldsRendered : Document → List (String × Json.Value) → Prop
  /-- A root has its children. -/
  | document {children : List Document} {fields : List (String × Json.Value)}
    (inner : ChildrenRendered children fields) : FieldsRendered (.document children) fields
  /-- An element has its tag, its attributes and its children. -/
  | element {tag : String} {attributes : Attributes} {children : List Document}
    {attributeFields childFields : List (String × Json.Value)}
    (shown : AttributesRendered attributes attributeFields)
    (inner : ChildrenRendered children childFields) :
    FieldsRendered (.element tag attributes children)
      (("tagName", .string tag) :: attributeFields ++ childFields)
  /-- A text has its data. -/
  | text {data : String} : FieldsRendered (.text data) [("content", .string data)]
  /-- A comment has its data. -/
  | comment {data : String} : FieldsRendered (.comment data) [("content", .string data)]

/-- The ways to write children as a field. -/
inductive ChildrenRendered : List Document → List (String × Json.Value) → Prop
  /-- No children may be left out. -/
  | omitted : ChildrenRendered [] []
  /-- Children are written as an array. -/
  | written {children : List Document} {items : List Json.Value}
    (all : AllRendered children items) : ChildrenRendered children [("children", .array items)]

/-- The ways to write documents as items of an array. -/
inductive AllRendered : List Document → List Json.Value → Prop
  /-- No documents are no items. -/
  | nil : AllRendered [] []
  /-- Each document is an item. -/
  | cons {first : Document} {later : List Document} {item : Json.Value} {items : List Json.Value}
    (front : Rendered first item) (behind : AllRendered later items) :
    AllRendered (first :: later) (item :: items)

end

section Fields

variable {α β : Type}

/-- Among entries with distinct names, a name is given by the entry that is found for it. -/
theorem filter_eq_of_distinct {entries : List (String × α)}
    (distinct : entries.Pairwise fun former latter => former.1 ≠ latter.1) (name : String) :
    entries.filter (fun entry => entry.1 == name) =
      ((entries.lookup name).map fun value => (name, value)).toList := by
  induction entries with
  | nil => rfl
  | cons first later ih =>
    obtain ⟨key, value⟩ := first
    obtain ⟨apart, others⟩ := List.pairwise_cons.mp distinct
    by_cases here : key = name
    · subst here
      have none : later.filter (fun entry => entry.1 == key) = [] :=
        List.filter_eq_nil_iff.mpr fun entry listed => by simpa using (apart entry listed).symm
      simp [none]
    · have elsewhere : name ≠ key := fun same => here same.symm
      simp [here, List.lookup_cons, beq_eq_false_iff_ne.mpr elsewhere, ih others]

/-- Entries give for a name what is found for it among some with distinct names, if they are those
and others of other names, in any order. -/
theorem field?_of_perm {name : String} {entries fields others : List (String × α)}
    (order : entries.Perm (fields ++ others))
    (distinct : fields.Pairwise fun former latter => former.1 ≠ latter.1)
    (apart : ∀ entry ∈ others, entry.1 ≠ name) :
    field? name entries = some (fields.lookup name) := by
  have none : others.filter (fun entry => entry.1 == name) = [] :=
    List.filter_eq_nil_iff.mpr fun entry listed => by simpa using apart entry listed
  have filtered := order.filter fun entry => entry.1 == name
  rw [List.filter_append, none, List.append_nil, filter_eq_of_distinct distinct] at filtered
  rw [field?]
  cases found : fields.lookup name with
  | none =>
    rw [found] at filtered
    rw [filtered.eq_nil]
  | some value =>
    rw [found] at filtered
    rw [List.perm_singleton.mp filtered]

/-- What entries give for a name does not depend on when it is made into something else. -/
theorem field?_map (name : String) (change : α → β) (entries : List (String × α)) :
    field? name (entries.map fun entry => (entry.1, change entry.2)) =
      (field? name entries).map (Option.map change) := by
  have same : ((fun entry : String × β => entry.1 == name) ∘
      fun entry : String × α => (entry.1, change entry.2)) = fun entry => entry.1 == name := rfl
  rw [field?, field?, List.filter_map, same]
  generalize entries.filter (fun entry => entry.1 == name) = found
  rcases found with _ | ⟨entry, _ | ⟨next, rest⟩⟩ <;> rfl

end Fields

/-- Reading each entry as an array of documents keeps the names. -/
theorem listsOfEntries_eq_map (entries : List (String × Json.Value)) :
    listsOfEntries entries = entries.map fun entry => (entry.1, listOf? entry.2) := by
  induction entries with
  | nil => rfl
  | cons first later ih => rw [listsOfEntries, ih, List.map_cons]

/-- Attributes written in any order read as the attributes. -/
theorem attributesOf?_of_perm {attributes : Attributes} {pairs : List (String × String)}
    (order : pairs.Perm attributes.entries) :
    attributesOf? (.object (pairs.map fun pair => (pair.1, .string pair.2))) =
      some attributes := by
  have read : ∀ pairs : List (String × String),
      (pairs.map fun pair => (pair.1, Json.Value.string pair.2)).mapM attributeOf? =
        some pairs := by
    intro pairs
    induction pairs with
    | nil => rfl
    | cons first later ih =>
      rw [List.map_cons, List.mapM_cons, ih]
      rfl
  rw [attributesOf?, read, Option.map_some, Attributes.ofPairs_of_perm order]

/-- The fields of a document have distinct names, and none has that of the type. -/
theorem FieldsRendered.distinct {document : Document} {fields : List (String × Json.Value)}
    (own : FieldsRendered document fields) (type : Json.Value) :
    (("type", type) :: fields).Pairwise fun former latter => former.1 ≠ latter.1 := by
  cases own with
  | document inner => cases inner <;> simp
  | element shown inner => cases shown <;> cases inner <;> simp
  | text => simp
  | comment => simp

/-- The fields that attributes are written as read as the attributes. -/
theorem orDefault_attributes {attributes : Attributes} {fields : List (String × Json.Value)}
    (rendered : AttributesRendered attributes fields) :
    orDefault .empty ((fields.lookup "attributes").map attributesOf?) = some attributes := by
  cases rendered with
  | omitted => rfl
  | written order => exact attributesOf?_of_perm order

/-- The fields that children are written as read as the children, if their items do. -/
theorem orDefault_children {children : List Document} {fields : List (String × Json.Value)}
    (rendered : ChildrenRendered children fields)
    (read : ∀ items, AllRendered children items → allOf? items = some children) :
    orDefault [] ((fields.lookup "children").map listOf?) = some children := by
  cases rendered with
  | omitted => rfl
  | written all => exact read _ all

/-- A rendering gives for the type and for each name of a field what the document's own fields
give. -/
theorem FieldsRendered.field?_eq {document : Document}
    {fields others entries : List (String × Json.Value)} (own : FieldsRendered document fields)
    (apart : ∀ entry ∈ others, entry.1 ≠ "type" ∧ entry.1 ∉ document.fieldNames)
    (order : entries.Perm (("type", .string document.type.name) :: fields ++ others))
    (name : String) (known : name = "type" ∨ name ∈ document.fieldNames) :
    field? name entries =
      some ((("type", Json.Value.string document.type.name) :: fields).lookup name) := by
  refine field?_of_perm order (own.distinct _) ?_
  rintro entry listed rfl
  exact known.elim (apart entry listed).1 (apart entry listed).2

/-- Among the fields of an element, attributes and children are found where they are written. -/
theorem lookup_element {attributes : Attributes} {children : List Document}
    {attributeFields childFields : List (String × Json.Value)}
    (shown : AttributesRendered attributes attributeFields)
    (inner : ChildrenRendered children childFields) (type tag : Json.Value) :
    (("type", type) :: ("tagName", tag) :: attributeFields ++ childFields).lookup "attributes" =
        attributeFields.lookup "attributes" ∧
      (("type", type) :: ("tagName", tag) :: attributeFields ++ childFields).lookup "children" =
        childFields.lookup "children" := by
  cases shown <;> cases inner <;> exact ⟨rfl, rfl⟩

/-- Every rendering of a document reads as the document, if that is so of what is below it. -/
theorem ofValue?_of_inner {document : Document} {value : Json.Value}
    (rendered : Rendered document value)
    (read : ∀ items, AllRendered document.inner items → allOf? items = some document.inner)
    (nested : Bool) : ofValue? nested value = some document := by
  obtain @⟨_, fields, others, entries, own, apart, order⟩ := rendered
  have given := own.field?_eq apart order
  rw [ofValue?, ofEntries?, listsOfEntries_eq_map]
  simp only [required?, field?_map]
  rw [given "type" (.inl rfl)]
  cases own with
  | document inner =>
    have children : field? "children" entries = some (fields.lookup "children") :=
      given "children" (.inr (by simp [fieldNames]))
    rw [children]
    change (orDefault [] ((fields.lookup "children").map listOf?)).bind _ = _
    rw [orDefault_children inner read]
    rfl
  | @element tag _ _ attributeFields childFields shown inner =>
    obtain ⟨attributed, nodes⟩ := lookup_element shown inner (.string "element") (.string tag)
    have tagged : field? "tagName" entries = some (some (.string tag)) :=
      given "tagName" (.inr (by simp [fieldNames]))
    rw [tagged, (given "attributes" (.inr (by simp [fieldNames]))).trans (congrArg some attributed),
      (given "children" (.inr (by simp [fieldNames]))).trans (congrArg some nodes)]
    change (orDefault .empty ((attributeFields.lookup "attributes").map attributesOf?)).bind
      (fun attributes => (orDefault [] ((childFields.lookup "children").map listOf?)).bind
        fun children => some (element tag attributes children)) = _
    rw [orDefault_attributes shown, orDefault_children inner read]
    rfl
  | @text data =>
    have held : field? "content" entries = some (some (.string data)) :=
      given "content" (.inr (by simp [fieldNames]))
    rw [held]
    rfl
  | @comment data =>
    have held : field? "content" entries = some (some (.string data)) :=
      given "content" (.inr (by simp [fieldNames]))
    rw [held]
    rfl

/-- All renderings of some documents read as the documents. -/
theorem allOf?_of_rendered (documents : List Document) :
    ∀ items, AllRendered documents items → allOf? items = some documents := by
  induction documents using Document.inner_induction with
  | nil =>
    intro items all
    cases all
    rfl
  | cons first later below behind =>
    intro items all
    obtain _ | ⟨rendered, others⟩ := all
    rw [allOf?, ofValue?_of_inner rendered below, behind _ others]
    rfl

/-- Every rendering of a document reads as the document. -/
theorem ofValue?_of_rendered {document : Document} {value : Json.Value}
    (rendered : Rendered document value) (nested : Bool) :
    ofValue? nested value = some document :=
  ofValue?_of_inner rendered (allOf?_of_rendered document.inner) nested

/-- Writing every field in order is a rendering, if what is below the document is rendered. -/
theorem rendered_of_inner {document : Document}
    (below : AllRendered document.inner (allToJson document.inner)) :
    Rendered document document.toJson := by
  have none : ∀ entry ∈ ([] : List (String × Json.Value)),
      entry.1 ≠ "type" ∧ entry.1 ∉ document.fieldNames := by simp
  cases document with
  | document children =>
    rw [toJson]
    exact .object (.document (.written below)) none (.refl _)
  | element tag attributes children =>
    rw [toJson]
    exact .object (.element (.written (.refl _)) (.written below)) none (.refl _)
  | text data =>
    rw [toJson]
    exact .object .text none (.refl _)
  | comment data =>
    rw [toJson]
    exact .object .comment none (.refl _)

/-- Documents written in order are rendered. -/
theorem allRendered_allToJson (documents : List Document) :
    AllRendered documents (allToJson documents) := by
  induction documents using Document.inner_induction with
  | nil => exact .nil
  | cons first later below behind => exact .cons (rendered_of_inner below) behind

/-- Writing every field in order is a rendering. -/
theorem rendered_toJson (document : Document) : Rendered document document.toJson :=
  rendered_of_inner (allRendered_allToJson document.inner)

/-- There is no number in a document written as JSON. -/
theorem numberFree_of_inner {document : Document}
    (below : ∀ value ∈ allToJson document.inner, value.NumberFree) :
    document.toJson.NumberFree := by
  have shown : ∀ attributes, (attributesToJson attributes).NumberFree := by
    intro attributes
    refine .object fun entry listed => ?_
    obtain ⟨pair, _, rfl⟩ := List.mem_map.mp listed
    exact .string _
  cases document with
  | document children =>
    rw [toJson]
    exact .object (by simpa using ⟨Json.Value.NumberFree.string _, .array below⟩)
  | element tag attributes children =>
    rw [toJson]
    exact .object (by simpa using ⟨Json.Value.NumberFree.string _, .string _, shown attributes,
      .array below⟩)
  | text data =>
    rw [toJson]
    exact .object (by simpa using ⟨Json.Value.NumberFree.string _, .string _⟩)
  | comment data =>
    rw [toJson]
    exact .object (by simpa using ⟨Json.Value.NumberFree.string _, .string _⟩)

/-- There is no number in documents written as JSON. -/
theorem numberFree_allToJson (documents : List Document) :
    ∀ value ∈ allToJson documents, value.NumberFree := by
  induction documents using Document.inner_induction with
  | nil => exact fun _ listed => absurd listed List.not_mem_nil
  | cons first later below behind =>
    rw [allToJson]
    exact List.forall_mem_cons.mpr ⟨numberFree_of_inner below, behind⟩

/-- A text that writes a rendering of a document with at most 127 arrays and objects open at once
gives the document back. -/
theorem ofText?_of_rendered {document : Document} {value : Json.Value} {text : String}
    (rendered : Rendered document value) (fits : value.depth ≤ 127)
    (written : Json.Token.Spaced value.tokens text.toList) : ofText? text = some document := by
  rw [ofText?, Json.Value.ofText?_of_spaced fits written]
  exact ofValue?_of_rendered rendered false

/-- The text that a document is written as gives the document back. -/
theorem ofText?_toText {document : Document} (fits : document.toJson.depth ≤ 127) :
    ofText? document.toText = some document := by
  refine ofText?_of_rendered (rendered_toJson document) fits ?_
  rw [toText, Json.Value.toText, String.toList_ofList]
  exact Json.Token.spaced_flatMap (numberFree_of_inner (numberFree_allToJson document.inner))

/-- Every text that writes a rendering of a document with at most 127 arrays and objects open at
once gives the document back, and so does the text that a document is written as. -/
theorem ofText?_rendered (document : Document) :
    (∀ (value : Json.Value) (text : String), Rendered document value → value.depth ≤ 127 →
      Json.Token.Spaced value.tokens text.toList → ofText? text = some document) ∧
    (document.toJson.depth ≤ 127 → ofText? document.toText = some document) :=
  ⟨fun _ _ rendered fits written => ofText?_of_rendered rendered fits written, ofText?_toText⟩

/-- A list with two attributes and one item. -/
def listOfOne : Document :=
  .element "ul" (.ofPairs [("class", "m"), ("id", "n")]) [.element "li" .empty [.text "J/"]]

/-- The text of the item, with its type last. -/
def itemText : Json.Value := .object [("content", .string "J/"), ("type", .string "text")]

/-- The item, with its type last and its attributes left out. -/
def itemTypeLast : Json.Value :=
  .object [("children", .array [itemText]), ("tagName", .string "li"), ("type", .string "element")]

/-- The list, with its type last, its attributes in another order and a field of another name. -/
def typeLast : Json.Value :=
  .object [("x", .array [.null]), ("children", .array [itemTypeLast]),
    ("attributes", .object [("id", .string "n"), ("class", .string "m")]),
    ("tagName", .string "ul"), ("type", .string "element")]

/-- The list as text, with escapes and blanks. -/
def typeLastSpaced : String :=
  "\x7b\"x\":[null],\"children\":[\x7b\"children\":[\x7b\"content\": \"\\u004A\\/\"\n," ++
  "\"type\":\"text\"\x7d],\"tagName\":\"li\",\"type\":\"element\"\x7d]," ++
  "\"attributes\":\x7b\"id\":\"n\",\"class\":\"m\"\x7d,\"tagName\":\"ul\",\"type\":\"element\"\x7d"

/-- The list is rendered with each type last. -/
theorem rendered_typeLast : Rendered listOfOne typeLast := by
  have none : ∀ document : Document, ∀ entry ∈ ([] : List (String × Json.Value)),
      entry.1 ≠ "type" ∧ entry.1 ∉ document.fieldNames := by simp
  have text : Rendered (.text "J/") itemText := .object .text (none _) (List.reverse_perm _).symm
  have item : Rendered (.element "li" .empty [.text "J/"]) itemTypeLast :=
    .object (.element .omitted (.written (.cons text .nil))) (none _) (List.reverse_perm _).symm
  have apart : ∀ entry ∈ [("x", Json.Value.array [.null])],
      entry.1 ≠ "type" ∧ entry.1 ∉ listOfOne.fieldNames := by
    simp [listOfOne, fieldNames]
  have attributes : AttributesRendered (.ofPairs [("class", "m"), ("id", "n")])
      [("attributes", .object [("id", .string "n"), ("class", .string "m")])] :=
    .written (List.reverse_perm _)
  exact .object (.element attributes (.written (.cons item .nil))) apart (List.reverse_perm _).symm

/-- The text with escapes and blanks writes that rendering. -/
theorem spaced_typeLast : Json.Token.Spaced typeLast.tokens typeLastSpaced.toList := by
  have unit : Json.Character.WrittenUnit 'J'.toNat ['0', '0', '4', 'A'] := by
    have zero : Json.Character.HexDigit 0 '0' := ⟨by decide, .inl rfl⟩
    have four : Json.Character.HexDigit 4 '4' := ⟨by decide, .inl rfl⟩
    have ten : Json.Character.HexDigit 10 'A' := ⟨by decide, .inr rfl⟩
    exact .mk zero zero four ten
  have escaped : Json.Token.Written (.string "J/")
      ('"' :: [['\\', 'u', '0', '0', '4', 'A'], ['\\', '/']].flatten ++ ['"']) :=
    .string (.cons (.unit unit) (.cons (.short (by decide)) .nil))
  have noNumber : ∀ token ∈ typeLast.tokens, ∀ number, token ≠ .number number := by
    simp [typeLast, itemTypeLast, itemText, Json.Value.tokens, Json.Value.itemTokens,
      Json.Value.entryTokens]
  have front : ∀ count, Json.Token.Spaced (typeLast.tokens.take count)
      ((typeLast.tokens.take count).flatMap Json.Token.toText) := fun count =>
    Json.Token.spaced_flatMap fun token inside => noNumber token (List.mem_of_mem_take inside)
  have back : ∀ count, Json.Token.Spaced (typeLast.tokens.drop count)
      ((typeLast.tokens.drop count).flatMap Json.Token.toText) := fun count =>
    Json.Token.spaced_flatMap fun token inside => noNumber token (List.mem_of_mem_drop inside)
  have space : ∀ character ∈ [' '], Json.Token.isBlank character := by simp [Json.Token.isBlank]
  have newline : ∀ character ∈ ['\n'], Json.Token.isBlank character := by
    simp [Json.Token.isBlank]
  have tokens : typeLast.tokens.take 17 ++ .string "J/" :: typeLast.tokens.drop 18 =
      typeLast.tokens := by decide +kernel
  have text : (typeLast.tokens.take 17).flatMap Json.Token.toText ++
      ([' '] ++ ('"' :: [['\\', 'u', '0', '0', '4', 'A'], ['\\', '/']].flatten ++ ['"']) ++
        (['\n'] ++ (typeLast.tokens.drop 18).flatMap Json.Token.toText)) =
      typeLastSpaced.toList := by decide +kernel
  have spaced := (front 17).append (.cons space escaped ((back 18).behind newline))
  rwa [tokens, text] at spaced

/-- The text of the list gives it back, and so does the text that the list is written as. -/
theorem ofText?_rendered_typeLast :
    Rendered listOfOne typeLast ∧ typeLast.depth ≤ 127 ∧
    Json.Token.Spaced typeLast.tokens typeLastSpaced.toList ∧
    ofText? typeLastSpaced = some listOfOne ∧ listOfOne.toJson.depth ≤ 127 ∧
    ofText? listOfOne.toText = some listOfOne := by
  obtain ⟨reads, readsOwn⟩ := ofText?_rendered listOfOne
  exact ⟨rendered_typeLast, by decide, spaced_typeLast,
    reads typeLast typeLastSpaced rendered_typeLast (by decide) spaced_typeLast, by decide,
    readsOwn (by decide)⟩

end TreeQuery.Document
