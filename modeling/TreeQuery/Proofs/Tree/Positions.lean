import TreeQuery.Proofs.Tree.Condensed
import TreeQuery.Proofs.TreeView.Siblings
/-!
# Positions number the content

The position of a node is counted along links from sibling to sibling, over whatever is no content
between them. Where those links are what child lists say, the position of a child is told from the
part of the child list before it (`SiblingsListed.position_eq`), and whether it is first or last
from the part before or after it that is content. A built tree holds a document at its root alone,
so what counts among the children of a node are its elements and the texts that are not blank; their
positions number them from one on (`numbersContent_of_built`).
-/
namespace TreeQuery

/-- A value at an index of a filtered list stands in the list with as many kept values before it,
and the kept values after it are the later ones. -/
theorem exists_split_of_getElem?_filter {α : Type} {values : List α} {keeps : α → Bool}
    {index : Nat} {value : α} (found : (values.filter keeps)[index]? = some value) :
    ∃ before after, values = before ++ value :: after ∧ keeps value ∧
      (before.filter keeps).length = index ∧
      (values.filter keeps).length = index + 1 + (after.filter keeps).length := by
  obtain ⟨inside, here⟩ := List.getElem?_eq_some_iff.mp found
  have cut : values.filter keeps =
      (values.filter keeps).take index ++ value :: (values.filter keeps).drop (index + 1) := by
    rw [← here, List.cons_getElem_drop_succ, List.take_append_drop]
  obtain ⟨former, rest, rfl, keptFormer, keptRest⟩ := List.filter_eq_append_iff.mp cut
  obtain ⟨between, after, rfl, dropped, kept, keptAfter⟩ := List.filter_eq_cons_iff.mp keptRest
  have length : ((former ++ between).filter keeps).length = index := by
    rw [List.filter_append, List.filter_eq_nil_iff.mpr dropped, List.append_nil, keptFormer,
      List.length_take, Nat.min_eq_left (Nat.le_of_lt inside)]
  refine ⟨former ++ between, after, (List.append_assoc ..).symm, kept, length, ?_⟩
  rw [← List.append_assoc, List.filter_append, List.length_append, length,
    List.filter_cons_of_pos kept, List.length_cons]
  omega

namespace TreeView.SiblingsListed

variable {ν : Type} [DecidableEq ν] {view : TreeView ν} (listed : view.SiblingsListed)
  (families : view.Families) (noCircles : view.NoCircles) {parent child : ν} {before after : List ν}
  (split : view.children parent = before ++ child :: after)

include listed families noCircles split

/-- The position of a child counts the content before it in the child list, and the child itself
when it is content. -/
theorem position_eq : view.position child =
    (before.filter view.isSignificant).length + if view.isSignificant child then 1 else 0 := by
  rw [position, listed.preceding_eq families noCircles split, List.countP_reverse,
    List.countP_eq_length_filter]

/-- A child is first when nothing before it in the child list is content. -/
theorem isFirst_iff_filter : view.isFirst child ↔ before.filter view.isSignificant = [] := by
  simp [isFirst, listed.preceding_eq families noCircles split, isSignificant]

/-- A child is last when nothing after it in the child list is content. -/
theorem isLast_iff_filter : view.isLast child ↔ after.filter view.isSignificant = [] := by
  simp [isLast, listed.following_eq families noCircles split, isSignificant]

end TreeView.SiblingsListed

namespace Tree

/-- Whether a node is an element, or text with a character that is not blank. -/
def isContent (tree : Tree) (id : NodeId) : Bool :=
  match tree.content id with
  | some (.element _ _) => true
  | some (.text data) => data.toList.any fun character => !Text.isBlank character
  | _ => false

/-- The children of a node that are content. -/
def contentChildren (tree : Tree) (id : NodeId) : List NodeId :=
  (tree.children id).filter tree.isContent

/-- The positions of the children of a node number those that are content. -/
structure NumbersContent (tree : Tree) (parent : NodeId) : Prop where
  /-- Going back from a child ends. -/
  preceding : ∀ child ∈ tree.children parent,
    Walk.Meets tree.previous child (tree.view.preceding child)
  /-- Going on from a child ends. -/
  following : ∀ child ∈ tree.children parent,
    Walk.Meets tree.next child (tree.view.following child)
  /-- The children that are content have the positions from one on. -/
  position : ∀ {index child}, (tree.contentChildren parent)[index]? = some child →
    tree.view.position child = index + 1
  /-- Of them, the first one is first and no other is. -/
  first : ∀ {index child}, (tree.contentChildren parent)[index]? = some child →
    (tree.view.isFirst child ↔ index = 0)
  /-- Of them, the last one is last and no other is. -/
  last : ∀ {index child}, (tree.contentChildren parent)[index]? = some child →
    (tree.view.isLast child ↔ index + 1 = (tree.contentChildren parent).length)
  /-- A child that is no content has the position of the last content before it, or zero. -/
  between : ∀ {before child after}, tree.children parent = before ++ child :: after →
    ¬tree.isContent child → tree.view.position child = (before.filter tree.isContent).length

/-- In a tree built by inserting parts only the root holds a document. -/
theorem Grown.eq_root_of_document {tree : Tree} (grown : tree.Grown Edit.Builds) :
    ∀ id < tree.size, tree.content id = some .document → id = root := by
  refine grown.builds_induction ?start ?step
  case start =>
    intro id known _
    exact Nat.lt_one_iff.mp known
  case step =>
    intro tree parent content _ only _ part id inside holds
    rw [content_add] at holds
    rw [size_add] at inside
    rcases Nat.lt_succ_iff_lt_or_eq.mp inside with old | new
    · rw [if_neg (Nat.ne_of_lt old)] at holds
      exact only id old holds
    · rw [if_pos new, Option.some.injEq] at holds
      exact absurd holds part

section Built

variable {tree : Tree} (grown : tree.Grown Edit.Builds)

include grown

/-- A child counts as content when it is an element or text that is not blank. -/
theorem Grown.isSignificant_child {parent child : NodeId} (names : child ∈ tree.children parent) :
    tree.view.isSignificant child = tree.isContent child := by
  have forest := grown.forest_of_builds
  have known := forest.lt_of_mem_children names
  obtain ⟨node, found⟩ := exists_get? known
  have held : tree.content child = some node.content := by
    rw [Tree.content, found]
    rfl
  have part : node.content ≠ .document := by
    intro document
    rw [document] at held
    rw [grown.eq_root_of_document child known held] at names
    exact forest.not_listed forest.rootParent parent names
  rw [isSignificant_eq held, isContent, held]
  cases shown : node.content with
  | document => exact absurd shown part
  | element tag attributes => rfl
  | text data => exact List.not_all_eq_any_not ..
  | comment data => rfl

/-- Among children, what counts as content are the elements and the texts that are not blank. -/
theorem Grown.filter_isSignificant (parent : NodeId) {part : List NodeId}
    (among : part ⊆ tree.children parent) :
    part.filter tree.view.isSignificant = part.filter tree.isContent :=
  List.filter_congr fun _ listed => grown.isSignificant_child (among listed)

section Split

variable {parent child : NodeId} {before after : List NodeId}
  (split : tree.children parent = before ++ child :: after)

include split

/-- The position of a child counts the content children before it, and the child itself when it is
content. -/
theorem Grown.position_child : tree.view.position child =
    (before.filter tree.isContent).length + if tree.isContent child then 1 else 0 := by
  have forest := grown.forest_of_builds
  have names : child ∈ tree.children parent := by simp [split]
  rw [forest.siblingsListed_view.position_eq forest.families forest.noCircles split,
    grown.filter_isSignificant parent (by simp [split]), grown.isSignificant_child names]

/-- A child is first when no content child is before it. -/
theorem Grown.isFirst_child :
    tree.view.isFirst child ↔ (before.filter tree.isContent).length = 0 := by
  have forest := grown.forest_of_builds
  rw [forest.siblingsListed_view.isFirst_iff_filter forest.families forest.noCircles split,
    grown.filter_isSignificant parent (by simp [split]), List.length_eq_zero_iff]

/-- A child is last when no content child is after it. -/
theorem Grown.isLast_child :
    tree.view.isLast child ↔ (after.filter tree.isContent).length = 0 := by
  have forest := grown.forest_of_builds
  rw [forest.siblingsListed_view.isLast_iff_filter forest.families forest.noCircles split,
    grown.filter_isSignificant parent (by simp [split]), List.length_eq_zero_iff]

end Split

/-- In a tree built by inserting parts, positions number the content children of every node. -/
theorem Grown.numbersContent (parent : NodeId) : tree.NumbersContent parent where
  preceding child _ := grown.forest_of_builds.meets_preceding child
  following child _ := grown.forest_of_builds.meets_following child
  position found := by
    obtain ⟨before, after, split, content, length, -⟩ := exists_split_of_getElem?_filter found
    rw [grown.position_child split, if_pos content, length]
  first found := by
    obtain ⟨before, after, split, -, length, -⟩ := exists_split_of_getElem?_filter found
    rw [grown.isFirst_child split, length]
  last found := by
    obtain ⟨before, after, split, -, -, length⟩ := exists_split_of_getElem?_filter found
    rw [grown.isLast_child split, contentChildren, length]
    omega
  between split blank := by
    rw [grown.position_child split, if_neg blank, Nat.add_zero]

end Built

/-- In a built tree the positions of the children of a node number those that are elements or texts
with a character that is not blank. -/
theorem numbersContent_of_built {tree : Tree}
    (built : tree.Grown Edit.Builds ∨ ∃ document, ofDocument document = .ok tree)
    (parent : NodeId) : tree.NumbersContent parent := by
  rcases built with grown | ⟨document, loaded⟩
  · exact grown.numbersContent parent
  · exact (grown_of_ofDocument loaded).numbersContent parent

/-- A paragraph with a comment and a blank text before and behind a text and a break. -/
def paragraph : Tree :=
  (Edit.insert 1 (.text "\n")).apply ((Edit.insert 1 (.comment "end")).apply
    ((Edit.insert 1 (.element "br" .empty)).apply ((Edit.insert 1 (.text " ")).apply
      ((Edit.insert 1 (.text " one")).apply ((Edit.insert 1 (.comment "start")).apply
        ((Edit.insert 1 (.text "\t")).apply
          ((Edit.insert 0 (.element "p" .empty)).apply .empty)))))))

/-- The text and the break are the two content children of the paragraph. -/
theorem numbersContent_of_built_paragraph :
    (paragraph.Grown Edit.Builds ∨ ∃ document, ofDocument document = .ok paragraph) ∧
    paragraph.children 1 = [2, 3, 4, 5, 6, 7, 8] ∧ paragraph.contentChildren 1 = [4, 6] ∧
    [2, 3, 4, 5, 6, 7, 8].map paragraph.view.position = [0, 0, 1, 1, 2, 2, 2] ∧
    paragraph.NumbersContent 1 := by
  have built : paragraph.Grown Edit.Builds := by
    repeat refine .edit ?_ (.insert (by decide) nofun)
    exact .empty
  exact ⟨.inl built, by decide, by decide, by decide, numbersContent_of_built (.inl built) 1⟩

end Tree

end TreeQuery
