import TreeQuery.Attributes

/-!
# Trees of linked nodes

A tree holds its nodes in the order in which they were made, and a node is named by its number.
Nodes link to their parent, their children and the siblings beside them. The first node is the
root and holds the document. Making a node leaves it on its own; `append` puts it behind the last
child of another. Appending looks at nothing but that child list: a node appended again stays in
the list of its earlier parent, and links to siblings that are not set anew stay as they were.

A number is linked before it is known whether a node has it. Appending sets its links one after
the other, and ends at the first that would belong to a number without a node; the links set
before stay, so a child list may hold a number that no node has.
-/
namespace TreeQuery

/-- The number of a node. -/
abbrev NodeId := Nat

/-- What a node holds. -/
inductive Content where
  /-- The document. -/
  | document
  /-- An element. -/
  | element (tag : String) (attributes : Attributes)
  /-- Character data. -/
  | text (data : String)
  /-- A comment. -/
  | comment (data : String)
  deriving DecidableEq, Repr

/-- A node and its links. -/
structure Node where
  /-- What the node holds. -/
  content : Content
  /-- The parent. -/
  parent : Option NodeId := none
  /-- The children in order. -/
  children : List NodeId := []
  /-- The sibling just before. -/
  previous : Option NodeId := none
  /-- The sibling just after. -/
  next : Option NodeId := none
  deriving DecidableEq, Repr

/-- Nodes in the order in which they were made. -/
structure Tree where
  /-- The nodes. -/
  nodes : Array Node
  deriving DecidableEq, Repr

namespace Tree

/-- A tree that is a root alone. -/
def empty : Tree := ⟨#[{ content := .document }]⟩

/-- The number of the root. -/
def root : NodeId := 0

/-- How many nodes there are. -/
def size (tree : Tree) : Nat := tree.nodes.size

/-- The node with a number. -/
def get? (tree : Tree) (id : NodeId) : Option Node := tree.nodes[id]?

/-- What a node holds. -/
def content (tree : Tree) (id : NodeId) : Option Content := (tree.get? id).map Node.content

/-- The parent of a node. -/
def parent (tree : Tree) (id : NodeId) : Option NodeId := (tree.get? id).bind Node.parent

/-- The sibling just before a node. -/
def previous (tree : Tree) (id : NodeId) : Option NodeId := (tree.get? id).bind Node.previous

/-- The sibling just after a node. -/
def next (tree : Tree) (id : NodeId) : Option NodeId := (tree.get? id).bind Node.next

/-- The children of a node. -/
def children (tree : Tree) (id : NodeId) : List NodeId :=
  ((tree.get? id).map Node.children).getD []

/-- Makes a node on its own. Its number is the size of the tree before. -/
def push (tree : Tree) (content : Content) : Tree := ⟨tree.nodes.push { content }⟩

/-- Changes the node with a number, if there is one. -/
def modify (tree : Tree) (id : NodeId) (change : Node → Node) : Tree :=
  ⟨tree.nodes.modify id change⟩

/-- Puts a number at the end of the child list of a node. -/
def list (tree : Tree) (parent child : NodeId) : Tree :=
  tree.modify parent fun node => { node with children := node.children ++ [child] }

/-- Sets the parent of a node. -/
def own (tree : Tree) (parent child : NodeId) : Tree :=
  tree.modify child fun node => { node with parent := some parent }

/-- Links two nodes as siblings side by side. -/
def join (tree : Tree) (before after : NodeId) : Tree :=
  (tree.modify before fun node => { node with next := some after }).modify after
    fun node => { node with previous := some before }

/-- Puts a node behind the last child of another, all of which exist. -/
def link (tree : Tree) (parent child : NodeId) : Tree :=
  match (tree.children parent).getLast? with
  | none => (tree.list parent child).own parent child
  | some last => ((tree.list parent child).own parent child).join last child

/-- Whether the last child of a node exists, if it has one. -/
def lastExists (tree : Tree) (parent : NodeId) : Bool :=
  (tree.children parent).getLast?.all (· < tree.size)

/-- Puts a node behind the last child of another, and tells whether every link could be set. -/
def append (tree : Tree) (parent child : NodeId) : Tree × Bool :=
  if parent < tree.size ∧ child < tree.size then
    if tree.lastExists parent then (tree.link parent child, true)
    else ((tree.list parent child).own parent child, false)
  else (tree.list parent child, false)

/-- Makes a node and puts it behind the last child of another. -/
def add (tree : Tree) (parent : NodeId) (content : Content) : Tree :=
  (tree.push content).link parent tree.size

/-- Makes a node and appends it to another, and gives its number. The node stays when it could not
be linked, and no number is given. -/
def insert (tree : Tree) (parent : NodeId) (content : Content) : Tree × Option NodeId :=
  match (tree.push content).append parent tree.size with
  | (grown, true) => (grown, some tree.size)
  | (grown, false) => (grown, none)

/-- Making a node adds one to the size. -/
@[simp] theorem size_push (tree : Tree) (content : Content) :
    (tree.push content).size = tree.size + 1 := Array.size_push _

/-- A node exists still when another one is made. -/
theorem lt_size_push {tree : Tree} {id : NodeId} (known : id < tree.size) (content : Content) :
    id < (tree.push content).size := by
  rw [size_push]
  exact Nat.lt_succ_of_lt known

/-- Changing a node keeps the size. -/
@[simp] theorem size_modify (tree : Tree) (id : NodeId) (change : Node → Node) :
    (tree.modify id change).size = tree.size := Array.size_modify

/-- Linking nodes keeps the size. -/
@[simp] theorem size_link (tree : Tree) (parent child : NodeId) :
    (tree.link parent child).size = tree.size := by
  unfold link
  split <;> simp [list, own, join]

/-- Appending keeps the size, linked or not. -/
@[simp] theorem size_append (tree : Tree) (parent child : NodeId) :
    (tree.append parent child).1.size = tree.size := by
  unfold append
  split
  · split <;> simp [list, own]
  · simp [list]

/-- Adding a node adds one to the size. -/
@[simp] theorem size_add (tree : Tree) (parent : NodeId) (content : Content) :
    (tree.add parent content).size = tree.size + 1 := by
  simp [add]

/-- A changed node is the old one changed, and every other node is as before. -/
theorem get?_modify (tree : Tree) (id : NodeId) (change : Node → Node) (other : NodeId) :
    (tree.modify id change).get? other =
      if id = other then (tree.get? other).map change else tree.get? other :=
  Array.getElem?_modify

/-- The new node holds its content and has no links, and every other node is as before. -/
theorem get?_push (tree : Tree) (content : Content) (other : NodeId) :
    (tree.push content).get? other =
      if other = tree.size then some { content } else tree.get? other :=
  Array.getElem?_push

/-- A node exists when its number is below the size. -/
theorem get?_ne_none_iff {tree : Tree} {id : NodeId} : tree.get? id ≠ none ↔ id < tree.size := by
  simp [get?, size]

/-- The new node holds its content, and every other node what it held. -/
theorem content_push (tree : Tree) (content : Content) (id : NodeId) :
    (tree.push content).content id = if id = tree.size then some content else tree.content id := by
  rw [Tree.content, get?_push]
  split <;> rfl

/-- A number that no node has yet finds nothing. -/
theorem get?_size (tree : Tree) : tree.get? tree.size = none := by
  simp [get?, size]

/-- A new node has no links, so reading a link anywhere gives what it gave before. -/
theorem bind_get?_push (tree : Tree) {content : Content} {link : Node → Option NodeId}
    (bare : link { content } = none) (id : NodeId) :
    ((tree.push content).get? id).bind link = (tree.get? id).bind link := by
  rw [get?_push]
  split
  · rename_i new
    rw [new, get?_size, Option.bind_some, bare, Option.bind_none]
  · rfl

/-- Making a node gives no node a parent. -/
@[simp] theorem parent_push (tree : Tree) (content : Content) (id : NodeId) :
    (tree.push content).parent id = tree.parent id := tree.bind_get?_push rfl id

/-- Making a node puts no node before another. -/
@[simp] theorem previous_push (tree : Tree) (content : Content) (id : NodeId) :
    (tree.push content).previous id = tree.previous id := tree.bind_get?_push rfl id

/-- Making a node puts no node after another. -/
@[simp] theorem next_push (tree : Tree) (content : Content) (id : NodeId) :
    (tree.push content).next id = tree.next id := tree.bind_get?_push rfl id

/-- Making a node gives no node a child. -/
@[simp] theorem children_push (tree : Tree) (content : Content) (id : NodeId) :
    (tree.push content).children id = tree.children id := by
  rw [children, children, get?_push]
  split
  · rename_i new
    rw [new, get?_size]
    rfl
  · rfl

/-- Linking sets four links and no other: the parent of the child, the end of the child list of the
parent, and the links between the child and the last child before it, if there is one. -/
theorem get?_link (tree : Tree) (parent child id : NodeId) :
    (tree.link parent child).get? id = (tree.get? id).map fun node =>
      { node with
        parent := if id = child then some parent else node.parent
        children := if id = parent then node.children ++ [child] else node.children
        previous := if id = child then (tree.children parent).getLast?.or node.previous
          else node.previous
        next := if (tree.children parent).getLast? = some id then some child else node.next } := by
  unfold link
  cases (tree.children parent).getLast? with
  | none =>
    simp only [list, own, get?_modify]
    split <;> split <;> simp_all [Function.comp_def, eq_comm]
  | some last =>
    simp only [list, own, join, get?_modify]
    split <;> split <;> split <;> split <;> simp_all [Function.comp_def, eq_comm]

/-- A number below the size finds a node. -/
theorem exists_get? {tree : Tree} {id : NodeId} (known : id < tree.size) :
    ∃ node, tree.get? id = some node :=
  Option.ne_none_iff_exists'.mp (get?_ne_none_iff.mpr known)

/-- Linking changes no content. -/
@[simp] theorem content_link (tree : Tree) (parent child id : NodeId) :
    (tree.link parent child).content id = tree.content id := by
  simp [content, get?_link, Function.comp_def]

/-- Linking gives the child its parent. -/
theorem parent_link {tree : Tree} {child : NodeId} (known : child < tree.size)
    (parent id : NodeId) : (tree.link parent child).parent id =
      if id = child then some parent else tree.parent id := by
  rw [Tree.parent, get?_link, Option.bind_map]
  by_cases same : id = child
  · obtain ⟨node, found⟩ := exists_get? known
    simp [same, found]
  · simp only [same, if_false]
    rfl

/-- Linking puts the child at the end of the child list of its parent. -/
theorem children_link {tree : Tree} {parent : NodeId} (known : parent < tree.size)
    (child id : NodeId) : (tree.link parent child).children id =
      if id = parent then tree.children parent ++ [child] else tree.children id := by
  rw [children, get?_link, Option.map_map]
  by_cases same : id = parent
  · obtain ⟨node, found⟩ := exists_get? known
    simp [same, found, children]
  · simp [same, children, Function.comp_def]

/-- Linking puts the last child before the new one, if there is a last child. -/
theorem previous_link {tree : Tree} {child : NodeId} (known : child < tree.size)
    (parent id : NodeId) : (tree.link parent child).previous id =
      if id = child then (tree.children parent).getLast?.or (tree.previous child)
      else tree.previous id := by
  rw [previous, get?_link, Option.bind_map]
  by_cases same : id = child
  · obtain ⟨node, found⟩ := exists_get? known
    simp [same, found, previous]
  · simp only [same, if_false]
    rfl

/-- Linking puts the child after the last one, if there is a last child. -/
theorem next_link {tree : Tree} {parent : NodeId} (known : tree.lastExists parent)
    (child id : NodeId) : (tree.link parent child).next id =
      if (tree.children parent).getLast? = some id then some child else tree.next id := by
  rw [next, get?_link, Option.bind_map]
  by_cases last : (tree.children parent).getLast? = some id
  · have inside : id < tree.size := by
      rw [lastExists, last] at known
      exact of_decide_eq_true known
    obtain ⟨node, found⟩ := exists_get? inside
    simp [last, found]
  · simp only [last, if_false]
    rfl

/-- An added node holds its content, and every other node what it held. -/
theorem content_add (tree : Tree) (parent : NodeId) (content : Content) (id : NodeId) :
    (tree.add parent content).content id =
      if id = tree.size then some content else tree.content id := by
  rw [add, content_link, content_push]

/-- An added node comes at the end of the child list of its parent. -/
theorem children_add {tree : Tree} {parent : NodeId} (known : parent < tree.size)
    (content : Content) (id : NodeId) : (tree.add parent content).children id =
      if id = parent then tree.children parent ++ [tree.size] else tree.children id := by
  rw [add, children_link (lt_size_push known content), children_push, children_push]

/-- An added node has its parent, and every other node the parent that it had. -/
theorem parent_add (tree : Tree) (parent : NodeId) (content : Content) (id : NodeId) :
    (tree.add parent content).parent id =
      if id = tree.size then some parent else tree.parent id := by
  rw [add, parent_link (by simp), parent_push]

/-- An added node stands behind the last child of its parent, and every other node behind the one
that it stood behind. -/
theorem previous_add (tree : Tree) (parent : NodeId) (content : Content) {id : NodeId}
    (old : id ≠ tree.size) : (tree.add parent content).previous id = tree.previous id := by
  rw [add, previous_link (by simp), if_neg old, previous_push]

/-- A number that no node has yet has no children. -/
theorem children_of_le {tree : Tree} {id : NodeId} (missing : tree.size ≤ id) :
    tree.children id = [] := by
  simp [children, get?, Array.getElem?_eq_none missing]

/-- The last child of a node exists when all its children do. -/
theorem lastExists_of_lt {tree : Tree} {parent : NodeId}
    (known : ∀ child ∈ tree.children parent, child < tree.size) : tree.lastExists parent := by
  rw [lastExists, Option.all_eq_true]
  exact fun last ends => decide_eq_true (known last (List.mem_of_getLast? ends))

/-- Between existing nodes every link can be set. -/
theorem append_of_lt {tree : Tree} {parent child : NodeId} (parentKnown : parent < tree.size)
    (childKnown : child < tree.size) (lastKnown : tree.lastExists parent) :
    tree.append parent child = (tree.link parent child, true) := by
  simp [append, parentKnown, childKnown, lastKnown]

/-- There is nothing to change under a number that no node has. -/
theorem modify_of_le {tree : Tree} {id : NodeId} (missing : tree.size ≤ id)
    (change : Node → Node) : tree.modify id change = tree := by
  refine congrArg Tree.mk (Array.ext (by simp) fun index _ inside => ?_)
  have apart : id ≠ index := Nat.ne_of_gt (Nat.lt_of_lt_of_le inside missing)
  simp [Array.getElem_modify, apart]

/-- Under a number without a node nothing can be set. -/
theorem append_of_le {tree : Tree} {parent child : NodeId} (missing : tree.size ≤ parent) :
    tree.append parent child = (tree, false) := by
  simp [append, list, modify_of_le missing, Nat.not_lt.mpr missing]

/-- Adding under an existing node is inserting. -/
theorem insert_of_lt {tree : Tree} {parent : NodeId} (content : Content)
    (known : parent < tree.size) (lastKnown : tree.lastExists parent) :
    tree.insert parent content = (tree.add parent content, some tree.size) := by
  have lastStays : (tree.push content).lastExists parent := by
    simp only [lastExists, children_push, size_push] at lastKnown ⊢
    cases found : (tree.children parent).getLast? with
    | none => rfl
    | some last =>
      simp only [found, Option.all_some, decide_eq_true_eq] at lastKnown ⊢
      exact Nat.lt_succ_of_lt lastKnown
  have new : tree.size < (tree.push content).size := by simp
  rw [insert, append_of_lt (lt_size_push known content) new lastStays]
  rfl

end Tree

end TreeQuery
