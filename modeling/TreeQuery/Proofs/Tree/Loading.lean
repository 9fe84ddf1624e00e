import TreeQuery.Proofs.Document.Parts
import TreeQuery.Proofs.Tree.Walks
import TreeQuery.Tree.OfDocument
/-!
# Loading documents

A tree is read back along its child lists: a node gives its content holding what its children give
(`Reads`). Loading a document without a root below its top gives a tree that reads back as the
document, with one node more than the document has parts, numbered in document order; and a loaded
tree is one that could have been built part by part (`grown_of_ofDocument`).

Documents are attached one after the other. Attaching some of them makes new nodes with the next
numbers, in document order, and changes no earlier node but the one that they are attached to, whose
child list they continue (`exists_attached`); so what was attached before still reads the same.
-/
namespace TreeQuery

namespace Tree

/-- Reading nodes along their child lists gives documents. -/
inductive Reads (tree : Tree) : List NodeId → List Document → Prop
  /-- No nodes give no documents. -/
  | nil : Reads tree [] []
  /-- A node gives its content holding what its children give. -/
  | cons {first : NodeId} {rest : List NodeId} {content : Content} {inner later : List Document}
    (holds : tree.content first = some content) (inside : Reads tree (tree.children first) inner)
    (after : Reads tree rest later) : Reads tree (first :: rest) (content.holding inner :: later)

/-- Nodes read as one list of documents. -/
theorem Reads.unique {tree : Tree} {ids : List NodeId} {documents others : List Document}
    (reads : tree.Reads ids documents) (readsOther : tree.Reads ids others) :
    documents = others := by
  induction reads generalizing others with
  | nil =>
    cases readsOther
    rfl
  | cons holds _ _ inside after =>
    cases readsOther with
    | cons holdsOther insideOther afterOther =>
      rw [holds] at holdsOther
      cases holdsOther
      rw [inside insideOther, after afterOther]

/-- What nodes read as depends on the nodes at or below them alone. -/
theorem Reads.congr {tree grown : Tree} {ids order : List NodeId} {documents : List Document}
    (reads : tree.Reads ids documents) (ordered : Walk.DocumentOrder tree.children ids order)
    (same : ∀ id ∈ order, grown.content id = tree.content id ∧
      grown.children id = tree.children id) : grown.Reads ids documents := by
  induction reads generalizing order with
  | nil => exact .nil
  | @cons first rest content inner later holds _ _ inside after =>
    cases ordered with
    | cons orderedInside orderedAfter =>
      obtain ⟨sameContent, sameChildren⟩ := same first List.mem_cons_self
      refine .cons (sameContent.trans holds) ?_ ?_
      · rw [sameChildren]
        exact inside orderedInside fun id below =>
          same id (List.mem_cons_of_mem _ (List.mem_append_left _ below))
      · exact after orderedAfter fun id behind =>
          same id (List.mem_cons_of_mem _ (List.mem_append_right _ behind))

/-- A tree in which documents were attached to a node of an earlier one. -/
structure Attached (tree : Tree) (parent : NodeId) (documents : List Document)
    (ids : List NodeId) (grown : Tree) : Prop where
  /-- There is a new node for every part of the documents. -/
  size : grown.size = tree.size + Document.countAll documents
  /-- The documents continue the child list of the node that they were attached to. -/
  children : grown.children parent = tree.children parent ++ ids
  /-- Every earlier node holds what it held. -/
  contentKept : ∀ id < tree.size, grown.content id = tree.content id
  /-- Every earlier node but that one has the children that it had. -/
  childrenKept : ∀ id < tree.size, id ≠ parent → grown.children id = tree.children id
  /-- The new nodes read as the documents. -/
  reads : grown.Reads ids documents
  /-- The new nodes are numbered in document order. -/
  ordered : Walk.DocumentOrder grown.children ids
    (List.range' tree.size (Document.countAll documents))

namespace Attached

/-- Nothing is attached at first. -/
theorem nil (tree : Tree) (parent : NodeId) : tree.Attached parent [] [] tree where
  size := rfl
  children := (List.append_nil _).symm
  contentKept _ _ := rfl
  childrenKept _ _ _ := rfl
  reads := .nil
  ordered := .nil

section Cons

variable {tree middle grown : Tree} {parent : NodeId} {content : Content}
  {inner later : List Document} {innerIds laterIds : List NodeId}

/-- After documents were attached to a new node and others after it, the new node has the first
ones below it. -/
theorem children_new (known : parent < tree.size)
    (inside : (tree.add parent content).Attached tree.size inner innerIds middle)
    (after : middle.Attached parent later laterIds grown) :
    grown.children tree.size = innerIds := by
  have new : tree.size < middle.size := by
    rw [inside.size, size_add]
    omega
  calc
    grown.children tree.size = middle.children tree.size :=
      after.childrenKept tree.size new (Nat.ne_of_gt known)
    _ = (tree.add parent content).children tree.size ++ innerIds := inside.children
    _ = innerIds := by
      rw [children_add known, if_neg (Nat.ne_of_gt known), children_of_le (Nat.le_refl _),
        List.nil_append]

/-- What was attached to a new node stays as it is when others are attached after it. -/
theorem kept_inner (known : parent < tree.size)
    (inside : (tree.add parent content).Attached tree.size inner innerIds middle)
    (after : middle.Attached parent later laterIds grown) {id : NodeId}
    (below : id ∈ List.range' (tree.add parent content).size (Document.countAll inner)) :
    grown.content id = middle.content id ∧ grown.children id = middle.children id := by
  rw [List.mem_range'_1, size_add] at below
  have old : id < middle.size := by
    rw [inside.size, size_add]
    exact below.2
  have apart : id ≠ parent :=
    Nat.ne_of_gt (Nat.lt_of_lt_of_le known (Nat.le_of_succ_le below.1))
  exact ⟨after.contentKept id old, after.childrenKept id old apart⟩

/-- A node is added below another, documents are attached to it, and others after it. -/
theorem cons (known : parent < tree.size)
    (inside : (tree.add parent content).Attached tree.size inner innerIds middle)
    (after : middle.Attached parent later laterIds grown) (holds : content.CanHold inner) :
    tree.Attached parent (content.holding inner :: later) (tree.size :: laterIds) grown := by
  have middleSize : middle.size = tree.size + 1 + Document.countAll inner := by
    rw [inside.size, size_add]
  have new : tree.size < middle.size := by omega
  have all : Document.countAll (content.holding inner :: later) =
      Document.countAll inner + 1 + Document.countAll later := by
    rw [Document.countAll, Document.count_holding holds]
  have own := children_new known inside after
  refine ⟨?size, ?children, ?contentKept, ?childrenKept, ?reads, ?ordered⟩
  case size =>
    rw [after.size, all]
    omega
  case children =>
    have old : parent < (tree.add parent content).size := by
      rw [size_add]
      exact Nat.lt_succ_of_lt known
    rw [after.children, inside.childrenKept parent old (Nat.ne_of_lt known), children_add known,
      if_pos rfl, List.append_assoc, List.singleton_append]
  case contentKept =>
    intro id old
    rw [after.contentKept id (by omega), inside.contentKept id (by rw [size_add]; omega),
      content_add, if_neg (Nat.ne_of_lt old)]
  case childrenKept =>
    intro id old apart
    rw [after.childrenKept id (by omega) apart,
      inside.childrenKept id (by rw [size_add]; omega) (Nat.ne_of_lt old),
      children_add known, if_neg apart]
  case reads =>
    refine .cons ?_ ?_ after.reads
    · rw [after.contentKept tree.size new, inside.contentKept tree.size (by simp), content_add,
        if_pos rfl]
    · rw [own]
      exact inside.reads.congr inside.ordered fun id below => kept_inner known inside after below
  case ordered =>
    have below := inside.ordered.congr fun id below => (kept_inner known inside after below).2
    rw [← own] at below
    have order := Walk.DocumentOrder.cons below after.ordered
    rw [size_add, middleSize, List.range'_append_1, ← List.range'_succ] at order
    rw [all, Nat.add_right_comm]
    exact order

end Cons

end Attached

/-- A part is attached with what it holds before the documents after it. -/
theorem attachAll_holding (tree : Tree) (parent : NodeId) (depth : Nat) {content : Content}
    {inner : List Document} (holds : content.CanHold inner) (later : List Document) :
    tree.attachAll parent depth (content.holding inner :: later) = (do
      let middle ← (tree.add parent content).attachAll tree.size (depth + 1) inner
      middle.attachAll parent depth later) := by
  cases holds with
  | element => rw [Content.holding, attachAll, attach]
  | text => rw [Content.holding, attachAll, attachAll, attach]
  | comment => rw [Content.holding, attachAll, attachAll, attach]

/-- Where a part and the documents after it were attached, what the part holds was attached first,
and the others to the tree that came of it. -/
theorem exists_middle {tree grown : Tree} {parent : NodeId} {depth : Nat} {content : Content}
    {inner later : List Document} (holds : content.CanHold inner)
    (attached : tree.attachAll parent depth (content.holding inner :: later) = .ok grown) :
    ∃ middle, (tree.add parent content).attachAll tree.size (depth + 1) inner = .ok middle ∧
      middle.attachAll parent depth later = .ok grown := by
  rw [attachAll_holding tree parent depth holds] at attached
  cases first : (tree.add parent content).attachAll tree.size (depth + 1) inner with
  | error error =>
    rw [first] at attached
    cases attached
  | ok middle =>
    rw [first] at attached
    exact ⟨middle, rfl, attached⟩

/-- The tree of a document has the parts of the document attached to its root. -/
theorem ofDocument_eq (document : Document) :
    ofDocument document = empty.attachAll root document.partsDepth document.parts := by
  have alone : ∀ part, empty.attachAll root 0 [part] = empty.attach root 0 part := by
    intro part
    simp only [attachAll]
    exact bind_pure _
  cases document with
  | document children => rfl
  | element tag attributes children => exact (alone _).symm
  | text data => exact (alone _).symm
  | comment data => exact (alone _).symm

/-- Documents without a root among them can be attached to any node. -/
theorem exists_attached (documents : List Document) (noRoot : Document.areParts documents)
    {tree : Tree} {parent : NodeId} (known : parent < tree.size) (depth : Nat) :
    ∃ grown ids, tree.attachAll parent depth documents = .ok grown ∧
      tree.Attached parent documents ids grown := by
  induction documents using Document.list_induction generalizing tree parent depth with
  | nil => exact ⟨tree, [], rfl, .nil tree parent⟩
  | document inner later _ _ => simp [Document.areParts, Document.isPart] at noRoot
  | part content inner later holds below behind =>
    rw [Document.areParts, Document.isPart_holding holds, Bool.and_eq_true] at noRoot
    have newKnown : tree.size < (tree.add parent content).size := by simp
    obtain ⟨middle, innerIds, attached, inside⟩ := below noRoot.1 newKnown (depth + 1)
    have stillKnown : parent < middle.size := by
      rw [inside.size, size_add]
      exact Nat.lt_add_right _ (Nat.lt_succ_of_lt known)
    obtain ⟨grown, laterIds, attachedLater, after⟩ := behind noRoot.2 stillKnown depth
    refine ⟨grown, tree.size :: laterIds, ?_, .cons known inside after holds⟩
    rw [attachAll_holding tree parent depth holds, attached]
    exact attachedLater

/-- What is kept by adding parts below existing nodes is kept by attaching documents. -/
theorem attachAll_keeps {keeps : Tree → Prop}
    (step : ∀ tree parent content, keeps tree → parent < tree.size → content ≠ .document →
      keeps (tree.add parent content)) (documents : List Document) {tree grown : Tree}
    {parent : NodeId} {depth : Nat} (known : parent < tree.size) (start : keeps tree)
    (attached : tree.attachAll parent depth documents = .ok grown) :
    keeps grown ∧ tree.size ≤ grown.size := by
  induction documents using Document.list_induction generalizing tree parent depth grown with
  | nil =>
    cases attached
    exact ⟨start, Nat.le_refl _⟩
  | document inner later _ _ =>
    rw [attachAll, attach] at attached
    cases attached
  | part content inner later holds below behind =>
    obtain ⟨middle, first, second⟩ := exists_middle holds attached
    have added := step tree parent content start known holds.ne_document
    obtain ⟨middleKeeps, middleLarger⟩ := below (by simp) added first
    rw [size_add] at middleLarger
    obtain ⟨grownKeeps, grownLarger⟩ :=
      behind (Nat.lt_of_lt_of_le known (Nat.le_of_succ_le middleLarger)) middleKeeps second
    exact ⟨grownKeeps, Nat.le_trans (Nat.le_of_succ_le middleLarger) grownLarger⟩

/-- The tree of a document is built by inserting one part after the other. -/
theorem grown_of_ofDocument {document : Document} {tree : Tree}
    (loaded : ofDocument document = .ok tree) : tree.Grown Edit.Builds := by
  rw [ofDocument_eq] at loaded
  exact (attachAll_keeps (fun _ _ _ grown known part => grown.add known part) _
    Forest.empty.root_lt .empty loaded).1

/-- A document without a root below its top can be loaded. The tree reads back as the document,
has one node more than the document has parts, numbers its nodes in document order, and is a
forest. -/
theorem ofDocument_reads (document : Document) (noRoot : Document.areParts document.parts) :
    ∃ tree, ofDocument document = .ok tree ∧
      tree.Reads (tree.children root) document.parts ∧
      (∀ documents, tree.Reads (tree.children root) documents → documents = document.parts) ∧
      tree.size = 1 + document.count ∧
      tree.descendants root = List.range' 1 (tree.size - 1) ∧ tree.Forest := by
  obtain ⟨tree, ids, loaded, attached⟩ := exists_attached document.parts noRoot
    Forest.empty.root_lt document.partsDepth
  rw [← ofDocument_eq] at loaded
  have forest := (grown_of_ofDocument loaded).forest_of_builds
  have top : tree.children root = ids := attached.children
  have size : tree.size = 1 + document.count := by
    rw [attached.size, Document.countAll_parts]
    rfl
  refine ⟨tree, loaded, top ▸ attached.reads, fun documents reads => ?_, size, ?_, forest⟩
  · exact (reads.unique (top ▸ attached.reads))
  · have ordered := attached.ordered
    rw [← top, Document.countAll_parts] at ordered
    rw [(forest.documentOrder_descendants root).unique ordered, size, Nat.add_sub_cancel_left]
    rfl

/-- A document with an element in an element, between texts and a comment. -/
def nestedDocument : Document :=
  .document [.comment "top", .element "p" (.ofPairs [("class", "x")])
    [.text "one ", .element "b" .empty [.text "two"], .text " three"], .text "end"]

/-- The nested document is read back from its tree. -/
theorem ofDocument_reads_nested : Document.areParts nestedDocument.parts ∧
    ∃ tree, ofDocument nestedDocument = .ok tree ∧
      tree.Reads (tree.children root) nestedDocument.parts ∧
      (∀ documents, tree.Reads (tree.children root) documents →
        documents = nestedDocument.parts) ∧
      tree.size = 1 + nestedDocument.count ∧
      tree.descendants root = List.range' 1 (tree.size - 1) ∧ tree.Forest :=
  ⟨by decide, ofDocument_reads nestedDocument (by decide)⟩

end Tree

end TreeQuery
